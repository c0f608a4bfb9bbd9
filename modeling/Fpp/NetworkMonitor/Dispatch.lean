import Fpp.NetworkMonitor.Registry

/-!
# Dispatch while callbacks change the registry

`callCallbacks` walks `callbacks` with a range-for: from `begin()`, while the
iterator is not `end()`, it calls `it->second(nl, up, n)` and then does `++it`.
A `std::map` iterator stays valid across inserts and across erasing other
entries; erasing the entry it points at invalidates it, and `++it` on it is
undefined.

Here a callback may call `registerCallback` and `removeCallback` on the monitor
that dispatches it: `act ev k cb nm` lists the calls that the callback `cb`,
stored under `k`, makes when it is called with `ev` on the monitor as it is
then.  The iterator is the entry it points at (`none` is `end()`), and `++it`
from key `k` moves to the first entry of the live map above `k`.  A dispatch
ends at `end()` (`done`), at a `++it` on an erased entry (`advancedInvalid`),
or runs out of fuel: a registration made during the walk gets an id above
every key, so the range-for visits it too, and a dispatch need not end.

* `callCallbacks_self_remove`: a single callback that removes itself makes the
  first `++it` advance an erased iterator.
* `dispatch_reentrant`: if no callback removes its own entry, a dispatch never
  advances an invalid iterator, it calls keys in ascending order (so each at
  most once), and every callback present when it started is called unless it
  was removed before its turn.
* `dispatch_complete`: under the same condition, a dispatch that reaches
  `end()` called every callback of the map it leaves, those registered during
  the walk included.
* `callCallbacks_removals_return`: if the callbacks only remove others, a
  dispatch returns within one iteration per callback, having called only
  callbacks present when it started.
* `callCallbacks_register_copy_never_ends`: a callback that registers a copy of
  itself on each call makes a dispatch that never reaches `end()`.

Every walk result comes from two run lemmas, `dispatch_endsWith` and
`dispatch_done`, applied to an invariant kept by one turn (`KeptByTurn`).
* `callCallbacksLive_passive`: with callbacks that do not touch the registry, a
  dispatch is `callCallbacks` of `NetworkMonitor.Registry`.
-/

namespace StdMap

variable {V : Type}

/-- `begin()`: the first entry, `none` for `end()`. -/
def begin (m : StdMap V) : Option (Int × V) := m.entries.head?

/-- `++it` from the entry with key `k`: the first entry above `k` in the map
as it is now, `none` for `end()`. -/
def next (m : StdMap V) (k : Int) : Option (Int × V) := m.entries.find? fun e => k < e.1

theorem mem_keys_insertAux {k x : Int} {v : V} :
    ∀ {l : List (Int × V)}, x ∈ (insertAux k v l).map Prod.fst ↔ x = k ∨ x ∈ l.map Prod.fst
  | [] => by simp [insertAux]
  | e :: rest => by
      unfold insertAux
      split
      · simp
      · split
        · rename_i hk
          simp only [List.map_cons, List.mem_cons, hk]
          tauto
        · simp only [List.map_cons, List.mem_cons, mem_keys_insertAux]
          tauto

@[simp]
theorem mem_keys_insert {m : StdMap V} {k x : Int} {v : V} :
    x ∈ (m.insert k v).keys ↔ x = k ∨ x ∈ m.keys :=
  mem_keys_insertAux

@[simp]
theorem mem_keys_erase {m : StdMap V} {k x : Int} : x ∈ (m.erase k).keys ↔ x ∈ m.keys ∧ x ≠ k := by
  simp only [keys, erase, List.mem_map, List.mem_filter, bne_iff_ne, ne_eq]
  constructor
  · rintro ⟨e, ⟨he, hk⟩, rfl⟩
    exact ⟨⟨e, he, rfl⟩, hk⟩
  · rintro ⟨⟨e, he, rfl⟩, hk⟩
    exact ⟨e, ⟨he, hk⟩, rfl⟩

theorem fst_mem_keys {m : StdMap V} {e : Int × V} (h : e ∈ m.entries) : e.1 ∈ m.keys :=
  List.mem_map_of_mem _ h

theorem begin_mem {m : StdMap V} {e : Int × V} (h : e ∈ m.begin) : e ∈ m.entries :=
  List.mem_of_mem_head? h

/-- `begin()` is the least key. -/
theorem begin_le {m : StdMap V} {e : Int × V} (h : e ∈ m.begin) : ∀ x ∈ m.keys, e.1 ≤ x := by
  have hs := m.sorted
  unfold begin at h
  unfold keys
  cases hl : m.entries with
  | nil => simp [hl] at h
  | cons a t =>
      rw [hl, List.head?_cons, Option.mem_some_iff] at h
      subst h
      rw [hl, List.pairwise_cons] at hs
      intro x hx
      rcases List.mem_cons.mp hx with rfl | hx
      · exact Int.le_refl _
      · obtain ⟨y, hy, rfl⟩ := List.mem_map.mp hx
        exact Int.le_of_lt (hs.1 y hy)

theorem keys_of_begin_eq_none {m : StdMap V} (h : m.begin = none) : m.keys = [] := by
  simp_all [begin, keys]

theorem next_mem {m : StdMap V} {k : Int} {e : Int × V} (h : e ∈ m.next k) :
    e ∈ m.entries ∧ k < e.1 :=
  ⟨List.mem_of_find?_eq_some h, by simpa using List.find?_some h⟩

private theorem find?_lt_le {k : Int} {e : Int × V} :
    ∀ {l : List (Int × V)}, l.Pairwise (fun a b => a.1 < b.1) →
      l.find? (fun e => k < e.1) = some e → ∀ x ∈ l, k < x.1 → e.1 ≤ x.1
  | [], _, h => by simp at h
  | a :: t, hs, h => by
      rw [List.pairwise_cons] at hs
      intro x hx hkx
      by_cases hka : k < a.1
      · rw [List.find?_cons_of_pos _ (by simpa using hka)] at h
        cases h
        rcases List.mem_cons.mp hx with rfl | hx
        · exact Int.le_refl _
        · exact Int.le_of_lt (hs.1 x hx)
      · rw [List.find?_cons_of_neg _ (by simpa using hka)] at h
        rcases List.mem_cons.mp hx with rfl | hx
        · exact absurd hkx hka
        · exact find?_lt_le hs.2 h x hx hkx

/-- `++it` goes to the least key above `k`. -/
theorem next_le {m : StdMap V} {k : Int} {e : Int × V} (h : e ∈ m.next k) :
    ∀ x ∈ m.keys, k < x → e.1 ≤ x := by
  intro x hx hkx
  obtain ⟨y, hy, rfl⟩ := List.mem_map.mp hx
  exact find?_lt_le m.sorted h y hy hkx

theorem le_of_next_eq_none {m : StdMap V} {k : Int} (h : m.next k = none) : ∀ x ∈ m.keys, x ≤ k := by
  intro x hx
  obtain ⟨y, hy, rfl⟩ := List.mem_map.mp hx
  exact Int.not_lt.mp (by simpa using List.find?_eq_none.mp h y hy)

/-- No key of the map lies strictly between `k` and `++it`. -/
theorem not_lt_next {m : StdMap V} {k j : Int} (hj : j ∈ m.keys) (hkj : k < j) :
    ¬ ∀ e ∈ m.next k, j < e.1 := by
  intro hje
  cases hn : m.next k with
  | none => have := le_of_next_eq_none hn j hj; omega
  | some e => have := next_le hn j hj hkj; have := hje e hn; omega

/-- On a map that nobody changes, `++it` is the next entry of the list. -/
theorem next_of_entries_eq {m : StdMap V} {pre rest : List (Int × V)} {e : Int × V}
    (h : m.entries = pre ++ e :: rest) : m.next e.1 = rest.head? := by
  have hs := m.sorted
  rw [h, List.pairwise_append, List.pairwise_cons] at hs
  obtain ⟨-, ⟨hrest, -⟩, hpre⟩ := hs
  have hnone : pre.find? (fun x => e.1 < x.1) = none :=
    List.find?_eq_none.mpr fun x hx => by
      have := hpre x hx e (List.mem_cons_self _ _)
      simpa using Int.not_lt.mpr (Int.le_of_lt this)
  rw [next, h, List.find?_append, hnone, Option.none_or,
    List.find?_cons_of_neg _ (by simp)]
  cases rest with
  | nil => rfl
  | cons a t => rw [List.find?_cons_of_pos _ (by simpa using hrest a (List.mem_cons_self _ _))]; rfl

end StdMap

namespace NetworkMonitor

variable {CB : Type}

/-- A call a callback makes on the monitor that dispatches it. -/
inductive RegCall (CB : Type)
  | register (callback : CB)
  | remove (id : Int)

/-- One such call. -/
def applyCall (nm : NetworkMonitor CB) : RegCall CB → NetworkMonitor CB
  | .register cb => (nm.registerCallback cb).1
  | .remove id => nm.removeCallback id

/-- How a dispatch ends. -/
inductive DispatchEnd (CB : Type)
  /-- `it == end()`: the monitor after the walk and the calls made. -/
  | done (nm : NetworkMonitor CB) (calls : List (Int × CB × NetEvent))
  /-- `++it` on an iterator whose entry the last call erased. -/
  | advancedInvalid (nm : NetworkMonitor CB) (calls : List (Int × CB × NetEvent))
  | outOfFuel

/-- The range-for of `callCallbacks` from the iterator `it`, after the calls
`calls`: call the entry `it` points at, let its registry calls act, then
`++it` on the live map. -/
def dispatch (act : NetEvent → Int → CB → NetworkMonitor CB → List (RegCall CB))
    (ev : NetEvent) :
    Nat → NetworkMonitor CB → Option (Int × CB) → List (Int × CB × NetEvent) → DispatchEnd CB
  | 0, _, _, _ => .outOfFuel
  | _ + 1, nm, none, calls => .done nm calls
  | fuel + 1, nm, some (k, cb), calls =>
      let nm' := (act ev k cb nm).foldl applyCall nm
      if k ∈ nm'.callbacks.keys then
        dispatch act ev fuel nm' (nm'.callbacks.next k) (calls ++ [(k, cb, ev)])
      else .advancedInvalid nm' (calls ++ [(k, cb, ev)])

/-- `NetworkMonitor::callCallbacks(nl, up, n)` with callbacks that act on the
monitor. -/
def callCallbacksLive (act : NetEvent → Int → CB → NetworkMonitor CB → List (RegCall CB))
    (fuel : Nat) (nm : NetworkMonitor CB) (nl : NetEventType) (up : Int) (n : String) :
    DispatchEnd CB :=
  dispatch act ⟨nl, up, n⟩ fuel nm nm.callbacks.begin []

/-- A monitor with the single callback `cb`, registered first (id `0`). -/
def oneCallback (cb : CB) : NetworkMonitor CB := ((initial 0).registerCallback cb).1

/-- A callback that removes itself: the first `++it` advances the iterator
its own call invalidated. -/
theorem callCallbacks_self_remove (cb : CB) (fuel : Nat) (nl : NetEventType) (up : Int)
    (n : String) :
    callCallbacksLive (fun _ k _ _ => [RegCall.remove k]) (fuel + 1) (oneCallback cb) nl up n =
      .advancedInvalid (initial 1) [(0, cb, ⟨nl, up, n⟩)] :=
  rfl

/-- Every key is below `curId`: the next registration gets a fresh id.  It
holds of every monitor reachable by registrations and removals
(`fresh_run`). -/
def Fresh (nm : NetworkMonitor CB) : Prop := ∀ k ∈ nm.callbacks.keys, k < nm.curId

theorem fresh_run (curId : Int) (ops : List (Op CB)) : Fresh (run (initial curId) ops).1 := by
  obtain ⟨he, hlt⟩ := registryInv_run curId ops
  intro k hk
  obtain ⟨e, he', rfl⟩ := List.mem_map.mp hk
  exact hlt _ (fst_mem_issuedIds _ e (he ▸ he'))

/-- What one registry call does to the keys: it keeps them, less the id it
removes, and a registration adds the current `curId`. -/
theorem mem_keys_applyCall {nm : NetworkMonitor CB} {x : Int} :
    ∀ c : RegCall CB, x ∈ (applyCall nm c).callbacks.keys ↔
      (x ∈ nm.callbacks.keys ∧ c ≠ .remove x) ∨ (∃ cb, c = .register cb) ∧ x = nm.curId
  | .register cb => by simp [applyCall, registerCallback, or_comm]
  | .remove id => by
      simp only [applyCall, removeCallback, StdMap.mem_keys_erase, ne_eq, RegCall.remove.injEq]
      simp [eq_comm]

theorem curId_applyCall_le (nm : NetworkMonitor CB) : ∀ c : RegCall CB,
    nm.curId ≤ (applyCall nm c).curId
  | .register _ => Int.le_of_lt (Int.lt_succ _)
  | .remove _ => Int.le_refl _

theorem fresh_applyCall {nm : NetworkMonitor CB} (h : Fresh nm) (c : RegCall CB) :
    Fresh (applyCall nm c) := by
  intro x hx
  have := curId_applyCall_le nm c
  rcases (mem_keys_applyCall c).mp hx with ⟨hx, -⟩ | ⟨⟨cb, rfl⟩, rfl⟩
  · exact Int.lt_of_lt_of_le (h x hx) this
  · exact Int.lt_succ _

section Calls

variable (cs : List (RegCall CB))

theorem curId_foldl_applyCall_le : ∀ nm : NetworkMonitor CB,
    nm.curId ≤ (cs.foldl applyCall nm).curId := by
  induction cs with
  | nil => exact fun _ => Int.le_refl _
  | cons c cs ih => exact fun nm => Int.le_trans (curId_applyCall_le nm c) (ih _)

theorem fresh_foldl_applyCall : ∀ {nm : NetworkMonitor CB}, Fresh nm → Fresh (cs.foldl applyCall nm) := by
  induction cs with
  | nil => exact id
  | cons c cs ih => exact fun h => ih (fresh_applyCall h c)

/-- A key after the calls was there before or is a fresh id. -/
theorem mem_keys_foldl_applyCall {x : Int} : ∀ {nm : NetworkMonitor CB},
    x ∈ (cs.foldl applyCall nm).callbacks.keys → x ∈ nm.callbacks.keys ∨ nm.curId ≤ x := by
  induction cs with
  | nil => exact .inl
  | cons c cs ih =>
      intro nm hx
      rcases ih hx with hx | hx
      · rcases (mem_keys_applyCall c).mp hx with ⟨hx, -⟩ | ⟨-, rfl⟩
        · exact .inl hx
        · exact .inr (Int.le_refl _)
      · exact .inr (Int.le_trans (curId_applyCall_le nm c) hx)

/-- A key that no call removes stays. -/
theorem mem_keys_foldl_applyCall_of_mem {x : Int} : ∀ {nm : NetworkMonitor CB},
    x ∈ nm.callbacks.keys → RegCall.remove x ∉ cs → x ∈ (cs.foldl applyCall nm).callbacks.keys := by
  induction cs with
  | nil => exact fun hx _ => hx
  | cons c cs ih =>
      intro nm hx hno
      rw [List.mem_cons, not_or] at hno
      exact ih ((mem_keys_applyCall c).mpr (.inl ⟨hx, Ne.symm hno.1⟩)) hno.2

end Calls

/-- A dispatch that, if it ends, ends at `end()` with `P` of the monitor and the
calls made: it never advances an invalid iterator. -/
def DispatchEnd.EndsWith (P : NetworkMonitor CB → List (Int × CB × NetEvent) → Prop) :
    DispatchEnd CB → Prop
  | .done nm calls => P nm calls
  | .advancedInvalid _ _ => False
  | .outOfFuel => True

/-- The walk's invariant, for the keys `K0` present when the dispatch started:
ids stay fresh, the iterator points at an entry of the live map above every
key called so far, the keys called ascend, and a starting key the iterator has
passed was called or is gone. -/
structure DispatchInv (K0 : List Int) (nm : NetworkMonitor CB) (it : Option (Int × CB))
    (calls : List (Int × CB × NetEvent)) : Prop where
  fresh : Fresh nm
  start_lt : ∀ j ∈ K0, j < nm.curId
  it_mem : ∀ e ∈ it, e ∈ nm.callbacks.entries
  calls_sorted : (calls.map Prod.fst).Pairwise (· < ·)
  calls_lt : ∀ e ∈ it, ∀ c ∈ calls, c.1 < e.1
  passed : ∀ j ∈ K0, (∀ e ∈ it, j < e.1) → j ∈ calls.map Prod.fst ∨ j ∉ nm.callbacks.keys

/-- Before a turn, the ids called so far and the current one are
distinct. -/
theorem DispatchInv.called_cur_nodup {K0 : List Int} {nm : NetworkMonitor CB} {k : Int} {cb : CB}
    {calls : List (Int × CB × NetEvent)} (hi : DispatchInv K0 nm (some (k, cb)) calls) :
    (calls.map Prod.fst ++ [k]).Nodup := by
  refine (List.pairwise_append.mpr ⟨hi.calls_sorted, List.pairwise_singleton _ _, ?_⟩).imp
    Int.ne_of_lt
  intro a ha b hb
  obtain ⟨c, hc, rfl⟩ := List.mem_map.mp ha
  exact List.mem_singleton.mp hb ▸ hi.calls_lt _ rfl c hc

theorem dispatchInv_begin {nm : NetworkMonitor CB} (h : Fresh nm) :
    DispatchInv nm.callbacks.keys nm nm.callbacks.begin [] where
  fresh := h
  start_lt := h
  it_mem _ he := StdMap.begin_mem he
  calls_sorted := .nil
  calls_lt _ _ _ hc := absurd hc (List.not_mem_nil _)
  passed j hj hlt := by
    cases hb : nm.callbacks.begin with
    | none => simp [StdMap.keys_of_begin_eq_none hb] at hj
    | some e =>
        have := StdMap.begin_le hb j hj
        have := hlt e hb
        omega

/-- Every key of the live map below the iterator has been called. -/
def CalledBelow (nm : NetworkMonitor CB) (it : Option (Int × CB))
    (calls : List (Int × CB × NetEvent)) : Prop :=
  ∀ j ∈ nm.callbacks.keys, (∀ e ∈ it, j < e.1) → j ∈ calls.map Prod.fst

theorem calledBelow_begin (nm : NetworkMonitor CB) : CalledBelow nm nm.callbacks.begin [] := by
  intro j hj hlt
  cases hb : nm.callbacks.begin with
  | none => simp [StdMap.keys_of_begin_eq_none hb] at hj
  | some e =>
      have := StdMap.begin_le hb j hj
      have := hlt e hb
      omega

/-- A registry call that only removes: it adds no key. -/
theorem mem_keys_foldl_remove {cs : List (RegCall CB)} (hcs : ∀ c ∈ cs, ∃ id, c = .remove id)
    {x : Int} : ∀ {nm : NetworkMonitor CB}, x ∈ (cs.foldl applyCall nm).callbacks.keys →
      x ∈ nm.callbacks.keys := by
  induction cs with
  | nil => exact id
  | cons c cs ih =>
      intro nm hx
      obtain ⟨id, rfl⟩ := hcs c (List.mem_cons_self _ _)
      have hx := ih (fun c hc => hcs c (List.mem_cons_of_mem _ hc)) hx
      exact ((mem_keys_applyCall (.remove id)).mp hx).elim (·.1) fun ⟨⟨_, h⟩, _⟩ => nomatch h

section Reentrant

variable (act : NetEvent → Int → CB → NetworkMonitor CB → List (RegCall CB)) (ev : NetEvent)
  {K0 : List Int}

/-- `P` is kept by one turn of the walk: after the call at the entry `(k, cb)`,
`k` is still a key, so `++it` is valid, and `P` holds at `++it`. -/
def KeptByTurn (P : NetworkMonitor CB → Option (Int × CB) → List (Int × CB × NetEvent) → Prop) :
    Prop :=
  ∀ nm k cb calls, P nm (some (k, cb)) calls →
    k ∈ ((act ev k cb nm).foldl applyCall nm).callbacks.keys ∧
      P ((act ev k cb nm).foldl applyCall nm)
        (((act ev k cb nm).foldl applyCall nm).callbacks.next k) (calls ++ [(k, cb, ev)])

/-- **Run lemma**, once for every invariant kept by a turn: the dispatch never
advances an invalid iterator and, if it reaches `end()`, the invariant holds
there. -/
theorem dispatch_endsWith {P : NetworkMonitor CB → Option (Int × CB) → List (Int × CB × NetEvent) → Prop}
    (hP : KeptByTurn act ev P) :
    ∀ (fuel : Nat) (nm : NetworkMonitor CB) (it : Option (Int × CB)) (calls),
      P nm it calls → (dispatch act ev fuel nm it calls).EndsWith fun nm' calls' => P nm' none calls'
  | 0, _, _, _, _ => trivial
  | _ + 1, _, none, _, h => h
  | fuel + 1, nm, some (k, cb), calls, h => by
      obtain ⟨hk, h'⟩ := hP nm k cb calls h
      rw [dispatch, if_pos hk]
      exact dispatch_endsWith hP fuel _ _ _ h'

/-- **Termination.**  If the invariant bounds the calls made before each turn
by `B`, a dispatch given more than `B` iterations reaches `end()`. -/
theorem dispatch_done {P : NetworkMonitor CB → Option (Int × CB) → List (Int × CB × NetEvent) → Prop}
    (hP : KeptByTurn act ev P) {B : Nat}
    (hB : ∀ nm k cb calls, P nm (some (k, cb)) calls → calls.length < B) :
    ∀ (fuel : Nat) (nm : NetworkMonitor CB) (it : Option (Int × CB)) (calls),
      P nm it calls → B - calls.length < fuel →
        ∃ nm' calls', dispatch act ev fuel nm it calls = .done nm' calls' ∧ P nm' none calls'
  | 0, _, _, _, _, hf => absurd hf (Nat.not_lt_zero _)
  | _ + 1, nm, none, calls, h, _ => ⟨nm, calls, rfl, h⟩
  | fuel + 1, nm, some (k, cb), calls, h, hf => by
      obtain ⟨hk, h'⟩ := hP nm k cb calls h
      have := hB nm k cb calls h
      rw [dispatch, if_pos hk]
      exact dispatch_done hP hB fuel _ _ _ h' (by rw [List.length_append, List.length_singleton]; omega)

/-- **Step lemma.**  If the callback at `k` does not remove `k`, its entry is
still there after its calls, so `++it` is valid, and the walk keeps its
invariant. -/
theorem dispatchInv_step {nm : NetworkMonitor CB} {k : Int} {cb : CB}
    {calls : List (Int × CB × NetEvent)} (hno : RegCall.remove k ∉ act ev k cb nm)
    (hinv : DispatchInv K0 nm (some (k, cb)) calls) :
    k ∈ ((act ev k cb nm).foldl applyCall nm).callbacks.keys ∧
      DispatchInv K0 ((act ev k cb nm).foldl applyCall nm)
        (((act ev k cb nm).foldl applyCall nm).callbacks.next k) (calls ++ [(k, cb, ev)]) := by
  set nm' := (act ev k cb nm).foldl applyCall nm
  have hcur : nm.curId ≤ nm'.curId := curId_foldl_applyCall_le _ nm
  have hk : k ∈ nm'.callbacks.keys :=
    mem_keys_foldl_applyCall_of_mem _ (StdMap.fst_mem_keys (hinv.it_mem _ rfl)) hno
  have hlt : ∀ c ∈ calls, c.1 < k := hinv.calls_lt _ rfl
  refine ⟨hk, fresh_foldl_applyCall _ hinv.fresh,
    fun j hj => Int.lt_of_lt_of_le (hinv.start_lt j hj) hcur,
    fun e he => (StdMap.next_mem he).1, ?_, ?_, ?_⟩
  · rw [List.map_append, List.pairwise_append]
    exact ⟨hinv.calls_sorted, List.pairwise_singleton _ _, by simpa using hlt⟩
  · intro e he c hc
    have hke := (StdMap.next_mem he).2
    rcases List.mem_append.mp hc with hc | hc
    · exact Int.lt_trans (hlt c hc) hke
    · exact List.mem_singleton.mp hc ▸ hke
  · intro j hj hje
    rw [List.map_append, List.mem_append, List.map_singleton, List.mem_singleton]
    rcases Int.lt_trichotomy j k with hjk | rfl | hkj
    · rcases hinv.passed j hj (fun e he => by cases he; exact hjk) with hc | hgone
      · exact .inl (.inl hc)
      · refine .inr fun hj' => ?_
        rcases mem_keys_foldl_applyCall _ hj' with hj' | hj'
        · exact hgone hj'
        · have := hinv.start_lt j hj
          omega
    · exact .inl (.inr rfl)
    · exact .inr fun hj' => StdMap.not_lt_next hj' hkj hje

/-- **Step lemma.**  After the call at `k`, a key of the map below `++it` is
`k`, or a key below `k` that was there before: ids registered by the call are
fresh, hence above `k`, and `++it` skips no key. -/
theorem calledBelow_step {nm : NetworkMonitor CB} {k : Int} {cb : CB}
    {calls : List (Int × CB × NetEvent)} (hinv : DispatchInv K0 nm (some (k, cb)) calls)
    (h : CalledBelow nm (some (k, cb)) calls) :
    CalledBelow ((act ev k cb nm).foldl applyCall nm)
      (((act ev k cb nm).foldl applyCall nm).callbacks.next k) (calls ++ [(k, cb, ev)]) := by
  intro j hj hje
  rw [List.map_append, List.mem_append, List.map_singleton, List.mem_singleton]
  rcases Int.lt_trichotomy j k with hjk | rfl | hkj
  · have hk : k < nm.curId := hinv.fresh k (StdMap.fst_mem_keys (hinv.it_mem _ rfl))
    rcases mem_keys_foldl_applyCall _ hj with hj | hj
    · exact .inl (h j hj fun e he => by cases he; exact hjk)
    · omega
  · exact .inr rfl
  · exact absurd hje (StdMap.not_lt_next hj hkj)

/-- **Run lemma.**  From any point of a walk that keeps the invariant, if no
callback removes its own entry, the dispatch never advances an invalid
iterator and, at `end()`, still has the invariant. -/
theorem dispatchInv_run (hno : ∀ k cb nm, RegCall.remove k ∉ act ev k cb nm) :
    ∀ (fuel : Nat) (nm : NetworkMonitor CB) (it : Option (Int × CB)) (calls),
      DispatchInv K0 nm it calls →
        (dispatch act ev fuel nm it calls).EndsWith fun nm' calls' => DispatchInv K0 nm' none calls' :=
  dispatch_endsWith act ev fun nm k cb _ hinv => dispatchInv_step act ev (hno k cb nm) hinv

end Reentrant

/-- **Re-entrant dispatch.**  On a monitor whose keys are below `curId` (every
reachable one, `fresh_run`), if no callback removes its own entry while it
runs (it may register callbacks and remove others): `callCallbacks` never
advances an invalidated iterator, and when it reaches `end()` it has called
keys in strictly ascending order, so each callback at most once, and every
callback present when it started was called unless it was removed before its
turn. -/
theorem dispatch_reentrant (act : NetEvent → Int → CB → NetworkMonitor CB → List (RegCall CB))
    (hno : ∀ ev k cb nm, RegCall.remove k ∉ act ev k cb nm) (nm : NetworkMonitor CB)
    (hfresh : Fresh nm) (fuel : Nat) (nl : NetEventType) (up : Int) (n : String) :
    (∀ nm' calls, callCallbacksLive act fuel nm nl up n ≠ .advancedInvalid nm' calls) ∧
    ∀ nm' calls, callCallbacksLive act fuel nm nl up n = .done nm' calls →
      (calls.map Prod.fst).Pairwise (· < ·) ∧
        ∀ k ∈ nm.callbacks.keys, k ∈ calls.map Prod.fst ∨ k ∉ nm'.callbacks.keys := by
  have hrun := dispatchInv_run act ⟨nl, up, n⟩ (hno _) fuel nm _ [] (dispatchInv_begin hfresh)
  unfold callCallbacksLive
  refine ⟨fun nm' calls h => by rw [h] at hrun; exact hrun, fun nm' calls h => ?_⟩
  have hinv : DispatchInv nm.callbacks.keys nm' none calls := by rw [h] at hrun; exact hrun
  exact ⟨hinv.calls_sorted, fun k hk => hinv.passed k hk fun _ he => absurd he (by simp)⟩

/-- The callback at id `0` removes id `1` and registers a copy of itself. -/
def removeNextRegister : NetEvent → Int → Unit → NetworkMonitor Unit → List (RegCall Unit) :=
  fun _ k cb _ => if k = 0 then [.remove 1, .register cb] else []

/-- Two callbacks, ids `0` and `1`. -/
def twoCallbacks : NetworkMonitor Unit := (run (initial 0) [.register (), .register ()]).1

/-- The callback at id `0` removes id `1`, not its own. -/
theorem removeNextRegister_keeps_own :
    ∀ ev k cb nm, RegCall.remove k ∉ removeNextRegister ev k cb nm := by
  intro ev k cb nm h
  unfold removeNextRegister at h
  split at h <;> simp_all

theorem dispatch_reentrant_removeNext :
    (∀ ev k cb nm, RegCall.remove k ∉ removeNextRegister ev k cb nm) ∧ Fresh twoCallbacks ∧
      ∀ nm' calls, callCallbacksLive removeNextRegister 3 twoCallbacks .newLink 1 "eth0" ≠
        .advancedInvalid nm' calls :=
  ⟨removeNextRegister_keeps_own, fresh_run 0 _,
    (dispatch_reentrant _ removeNextRegister_keeps_own _ (fresh_run 0 _) 3 .newLink 1 "eth0").1⟩

/-- **A finished dispatch missed no callback it leaves registered.**  On a
monitor whose keys are below `curId`, if no callback removes its own entry,
when `callCallbacks` reaches `end()` every callback of the map it leaves was
called, those registered during the walk included: their ids are above every
key, so the range-for reaches them. -/
theorem dispatch_complete (act : NetEvent → Int → CB → NetworkMonitor CB → List (RegCall CB))
    (hno : ∀ ev k cb nm, RegCall.remove k ∉ act ev k cb nm) (nm : NetworkMonitor CB)
    (hfresh : Fresh nm) (fuel : Nat) (nl : NetEventType) (up : Int) (n : String) :
    ∀ nm' calls, callCallbacksLive act fuel nm nl up n = .done nm' calls →
      ∀ k ∈ nm'.callbacks.keys, k ∈ calls.map Prod.fst := by
  have hrun := dispatch_endsWith act ⟨nl, up, n⟩
    (P := fun m it calls => DispatchInv nm.callbacks.keys m it calls ∧ CalledBelow m it calls)
    (fun _ k cb _ h => ⟨(dispatchInv_step act _ (hno _ k cb _) h.1).1,
      (dispatchInv_step act _ (hno _ k cb _) h.1).2, calledBelow_step act _ h.1 h.2⟩)
    fuel nm _ [] ⟨dispatchInv_begin hfresh, calledBelow_begin nm⟩
  intro nm' calls h k hk
  unfold callCallbacksLive at h
  rw [h] at hrun
  exact hrun.2 k hk fun _ he => absurd he (by simp)

/-- The callback registered during the walk, under id `2`, is called too. -/
theorem dispatch_complete_removeNext :
    (∀ ev k cb nm, RegCall.remove k ∉ removeNextRegister ev k cb nm) ∧ Fresh twoCallbacks ∧
      ∀ nm' calls, callCallbacksLive removeNextRegister 3 twoCallbacks .newLink 1 "eth0" =
        .done nm' calls → ∀ k ∈ nm'.callbacks.keys, k ∈ calls.map Prod.fst :=
  ⟨removeNextRegister_keeps_own, fresh_run 0 _,
    dispatch_complete _ removeNextRegister_keeps_own _ (fresh_run 0 _) 3 .newLink 1 "eth0"⟩

/-- **Callbacks that only remove others.**  On a monitor whose keys are below
`curId`, if every registry call a callback makes removes an entry other than
its own, `callCallbacks` given more iterations than there are callbacks
returns, and it called only callbacks present when it started.  With
`dispatch_reentrant`, the calls are exactly the callbacks present at the
start and not removed before their turn, in id order. -/
theorem callCallbacks_removals_return
    (act : NetEvent → Int → CB → NetworkMonitor CB → List (RegCall CB))
    (hrm : ∀ ev k cb m, ∀ c ∈ act ev k cb m, ∃ id, c = .remove id ∧ id ≠ k)
    (nm : NetworkMonitor CB) (hfresh : Fresh nm) {fuel : Nat}
    (hfuel : nm.callbacks.entries.length < fuel) (nl : NetEventType) (up : Int) (n : String) :
    ∃ nm' calls, callCallbacksLive act fuel nm nl up n = .done nm' calls ∧
      ∀ c ∈ calls, c.1 ∈ nm.callbacks.keys := by
  have hno : ∀ ev k cb m, RegCall.remove k ∉ act ev k cb m := fun ev k cb m h => by
    obtain ⟨id, hid, hne⟩ := hrm ev k cb m _ h
    cases hid
    exact hne rfl
  -- the walk stays inside the starting keys, and so do its calls
  let P := fun (m : NetworkMonitor CB) it (calls : List (Int × CB × NetEvent)) =>
    DispatchInv nm.callbacks.keys m it calls ∧ (∀ j ∈ m.callbacks.keys, j ∈ nm.callbacks.keys) ∧
      ∀ c ∈ calls, c.1 ∈ nm.callbacks.keys
  have hP : KeptByTurn act ⟨nl, up, n⟩ P := by
    rintro m k cb calls ⟨hi, hsub, hcalls⟩
    obtain ⟨hk, hi'⟩ := dispatchInv_step act _ (hno _ k cb m) hi
    refine ⟨hk, hi', fun j hj => hsub j (mem_keys_foldl_remove
      (fun c hc => (hrm _ k cb m c hc).imp fun _ h => h.1) hj), fun c hc => ?_⟩
    rcases List.mem_append.mp hc with hc | hc
    · exact hcalls c hc
    · rw [List.mem_singleton.mp hc]
      exact hsub k (StdMap.fst_mem_keys (hi.it_mem _ rfl))
  -- before a turn, the keys called and the current one are distinct starting keys
  have hB : ∀ m k cb calls, P m (some (k, cb)) calls → calls.length < nm.callbacks.entries.length := by
    rintro m k cb calls ⟨hi, hsub, hcalls⟩
    have hin : calls.map Prod.fst ++ [k] ⊆ nm.callbacks.keys := by
      refine List.append_subset.2 ⟨fun j hj => ?_, List.cons_subset.2
        ⟨hsub k (StdMap.fst_mem_keys (hi.it_mem _ rfl)), List.nil_subset _⟩⟩
      obtain ⟨c, hc, rfl⟩ := List.mem_map.mp hj
      exact hcalls c hc
    have := (List.subperm_of_subset hi.called_cur_nodup hin).length_le
    simp only [List.length_append, List.length_map, List.length_singleton, StdMap.keys] at this
    omega
  obtain ⟨nm', calls, h, _, _, hcalls⟩ := dispatch_done act ⟨nl, up, n⟩ hP hB fuel nm _ []
    ⟨dispatchInv_begin hfresh, fun _ h => h, fun _ h => absurd h (List.not_mem_nil _)⟩
    (by simpa using hfuel)
  exact ⟨nm', calls, h, hcalls⟩

/-- The callback at id `0` removes id `1`. -/
def removeOther : NetEvent → Int → Unit → NetworkMonitor Unit → List (RegCall Unit) :=
  fun _ k _ _ => if k = 0 then [.remove 1] else []

theorem callCallbacks_removals_return_removeOther :
    (∀ ev k cb m, ∀ c ∈ removeOther ev k cb m, ∃ id, c = .remove id ∧ id ≠ k) ∧
      Fresh twoCallbacks ∧ twoCallbacks.callbacks.entries.length < 3 ∧
      ∃ nm' calls, callCallbacksLive removeOther 3 twoCallbacks .newLink 1 "eth0" =
        .done nm' calls ∧ ∀ c ∈ calls, c.1 ∈ twoCallbacks.callbacks.keys :=
  have hrm : ∀ ev k cb m, ∀ c ∈ removeOther ev k cb m, ∃ id, c = .remove id ∧ id ≠ k := by
    intro ev k cb m c hc
    unfold removeOther at hc
    split at hc
    · exact ⟨1, List.mem_singleton.mp hc, by omega⟩
    · exact absurd hc (List.not_mem_nil _)
  ⟨hrm, fresh_run 0 _, by decide,
    callCallbacks_removals_return _ hrm _ (fresh_run 0 _) (by decide) .newLink 1 "eth0"⟩


/-- With callbacks that make no registry call, the walk from the entry after
`pre` calls the remaining entries in order and stops at `end()`. -/
theorem dispatch_passive_suffix (act : NetEvent → Int → CB → NetworkMonitor CB → List (RegCall CB))
    (hact : ∀ ev k cb m, act ev k cb m = []) (ev : NetEvent) (nm : NetworkMonitor CB) :
    ∀ (rest pre : List (Int × CB)) (fuel : Nat) (calls : List (Int × CB × NetEvent)),
      nm.callbacks.entries = pre ++ rest → rest.length < fuel →
        dispatch act ev fuel nm rest.head? calls =
          .done nm (calls ++ rest.map fun e => (e.1, e.2, ev))
  | _, _, 0, _, _, hlen => absurd hlen (Nat.not_lt_zero _)
  | [], _, _ + 1, calls, _, _ => by simp [dispatch]
  | (k, cb) :: rest, pre, fuel + 1, calls, h, hlen => by
      have hk : k ∈ nm.callbacks.keys := StdMap.fst_mem_keys (e := (k, cb)) (by simp [h])
      rw [List.head?_cons, dispatch, hact, List.foldl_nil, if_pos hk,
        StdMap.next_of_entries_eq (e := (k, cb)) h,
        dispatch_passive_suffix act hact ev nm rest (pre ++ [(k, cb)]) fuel _ (by simp [h])
          (by simpa using hlen)]
      simp

/-- **Refinement.**  With callbacks that do not touch the registry, the
re-entrant dispatch ends at `end()` with the monitor unchanged, having made
exactly the calls of `callCallbacks`. -/
theorem callCallbacksLive_passive (act : NetEvent → Int → CB → NetworkMonitor CB → List (RegCall CB))
    (hact : ∀ ev k cb m, act ev k cb m = []) (nm : NetworkMonitor CB) {fuel : Nat}
    (hfuel : nm.callbacks.entries.length < fuel) (nl : NetEventType) (up : Int) (n : String) :
    callCallbacksLive act fuel nm nl up n = .done nm (nm.callCallbacks nl up n) :=
  dispatch_passive_suffix act hact _ nm _ [] fuel [] rfl hfuel

/-- A callback that registers a copy of itself whenever it is called. -/
def registerCopy : NetEvent → Int → CB → NetworkMonitor CB → List (RegCall CB) :=
  fun _ _ cb _ => [.register cb]

/-- At the last entry `(k, cb)`, with fresh ids, the copy goes last under
`curId`, `++it` moves to it, and the walk is again at the last entry. -/
theorem dispatch_registerCopy (ev : NetEvent) (cb : CB) :
    ∀ (fuel : Nat) (nm : NetworkMonitor CB) (k : Int) (calls : List (Int × CB × NetEvent)),
      Fresh nm → (∀ x ∈ nm.callbacks.keys, x ≤ k) → (k, cb) ∈ nm.callbacks.entries →
        dispatch registerCopy ev fuel nm (some (k, cb)) calls = .outOfFuel
  | 0, _, _, _, _, _, _ => rfl
  | fuel + 1, nm, k, calls, hf, hle, hk => by
      have hlt : ∀ e ∈ nm.callbacks.entries, e.1 < nm.curId :=
        fun e he => hf _ (StdMap.fst_mem_keys he)
      have hent : ((registerCopy ev k cb nm).foldl applyCall nm).callbacks.entries =
          nm.callbacks.entries ++ [(nm.curId, cb)] :=
        StdMap.insertAux_of_lt hlt
      have hnext : ((registerCopy ev k cb nm).foldl applyCall nm).callbacks.next k =
          some (nm.curId, cb) := by
        rw [StdMap.next, hent, List.find?_append,
          List.find?_eq_none.mpr fun e he => by
            simpa using Int.not_lt.mpr (hle _ (StdMap.fst_mem_keys he)),
          Option.none_or, List.find?_cons_of_pos _ (by simpa using hlt _ hk)]
      rw [dispatch, if_pos (StdMap.fst_mem_keys (e := (k, cb)) (hent ▸ List.mem_append_left _ hk)),
        hnext]
      refine dispatch_registerCopy ev cb fuel _ _ _ (fresh_applyCall hf (.register cb))
        (fun x hx => ?_) (hent ▸ List.mem_append_right _ (List.mem_singleton_self _))
      rcases (@mem_keys_applyCall CB nm x (.register cb)).mp hx with ⟨hx, -⟩ | ⟨-, rfl⟩
      · exact Int.le_of_lt (hf x hx)
      · exact Int.le_refl _

/-- **Registration during a dispatch.**  The range-for also visits callbacks
registered while it runs, since their ids are above every key: a callback that
registers a copy of itself on each call makes `callCallbacks` never return,
whatever the fuel. -/
theorem callCallbacks_register_copy_never_ends (cb : CB) (fuel : Nat) (nl : NetEventType) (up : Int)
    (n : String) : callCallbacksLive registerCopy fuel (oneCallback cb) nl up n = .outOfFuel := by
  have hkeys : (oneCallback cb).callbacks.keys = [0] := rfl
  exact dispatch_registerCopy _ cb fuel _ 0 [] (fresh_run 0 [.register cb])
    (fun x hx => by rw [hkeys, List.mem_singleton] at hx; exact hx ▸ Int.le_refl 0)
    (List.mem_singleton_self _)

end NetworkMonitor
