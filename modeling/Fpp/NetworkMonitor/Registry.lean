import Mathlib.Data.List.Basic

/-!
# The NetworkMonitor callback registry

`NetworkMonitor` keeps its subscribers in a `std::map<int, callback>` keyed by
an id taken from the counter `curId`.  `registerCallback` stores the callback
under `curId++`, `removeCallback` erases a key, and `callCallbacks` calls every
stored callback in the map's key order.

The abstract registry of a history is its list of subscribers: each
registration in turn with the id it got, less those removed since
(`subscribers`).  The refinement invariant (`RegistryInv`) says that the map's
entries are exactly that list and that every id ever issued is below `curId`,
the allocator-dominates fact behind fresh ids.  From it, over every sequence of
operations (`registry_run`): a new id was never issued before, a dispatch calls
exactly the subscribers, once each, with its own arguments and in ascending id
order, and removing an id that is not subscribed changes nothing.

Callbacks are opaque values of a type `CB`: they are assumed not to touch the
registry, and a dispatch is recorded as the list of calls it makes.  `curId` is
C's `int`, kept as an `Int`; the runs considered are those in which it does not
overflow, where the two agree.
-/

/-- `std::map<int, V>`: the entries in ascending key order. -/
structure StdMap (V : Type) where
  entries : List (Int × V)
  sorted : entries.Pairwise fun a b => a.1 < b.1

namespace StdMap

variable {V : Type}

/-- The empty map. -/
def empty : StdMap V := ⟨[], .nil⟩

/-- Assignment `m[k] = v` on the ordered entry list: insert in key order,
replacing an entry with the same key. -/
def insertAux (k : Int) (v : V) : List (Int × V) → List (Int × V)
  | [] => [(k, v)]
  | e :: rest =>
      if k < e.1 then (k, v) :: e :: rest
      else if k = e.1 then (k, v) :: rest
      else e :: insertAux k v rest

theorem mem_insertAux {k : Int} {v : V} {x : Int × V} :
    ∀ {l : List (Int × V)}, x ∈ insertAux k v l → x = (k, v) ∨ x ∈ l
  | [], h => by simpa [insertAux] using h
  | e :: rest, h => by
      unfold insertAux at h
      split at h
      · simpa using h
      · split at h
        · rcases List.mem_cons.mp h with rfl | h
          · simp
          · simp [h]
        · rcases List.mem_cons.mp h with rfl | h
          · simp
          · rcases mem_insertAux h with rfl | h <;> simp [h]

theorem pairwise_insertAux (k : Int) (v : V) :
    ∀ {l : List (Int × V)}, l.Pairwise (fun a b => a.1 < b.1) →
      (insertAux k v l).Pairwise fun a b => a.1 < b.1
  | [], _ => by simp [insertAux]
  | e :: rest, h => by
      rw [List.pairwise_cons] at h
      unfold insertAux
      split
      · rename_i hk
        refine List.Pairwise.cons (fun x hx => ?_) (List.Pairwise.cons h.1 h.2)
        rcases List.mem_cons.mp hx with rfl | hx
        · exact hk
        · have := h.1 x hx
          show k < x.1; omega
      · split
        · rename_i hk
          subst hk
          exact List.Pairwise.cons h.1 h.2
        · rename_i hlt heq
          refine List.Pairwise.cons (fun x hx => ?_) (pairwise_insertAux k v h.2)
          rcases mem_insertAux hx with rfl | hx
          · show e.1 < k; omega
          · exact h.1 x hx

/-- Inserting a key above every key appends it. -/
theorem insertAux_of_lt {k : Int} {v : V} :
    ∀ {l : List (Int × V)}, (∀ e ∈ l, e.1 < k) → insertAux k v l = l ++ [(k, v)]
  | [], _ => rfl
  | e :: rest, h => by
      have he := h e (List.mem_cons_self _ _)
      simp only [insertAux, List.cons_append]
      rw [if_neg (by omega), if_neg (by omega),
        insertAux_of_lt fun x hx => h x (List.mem_cons_of_mem _ hx)]

/-- `m[k] = v`. -/
def insert (m : StdMap V) (k : Int) (v : V) : StdMap V :=
  ⟨insertAux k v m.entries, pairwise_insertAux k v m.sorted⟩

/-- `m.erase(k)`: drop the entry with key `k`, if any. -/
def erase (m : StdMap V) (k : Int) : StdMap V :=
  ⟨m.entries.filter (fun e => e.1 != k), m.sorted.filter _⟩

/-- The keys in iteration order. -/
def keys (m : StdMap V) : List Int := m.entries.map Prod.fst

theorem ext' {m m' : StdMap V} (h : m.entries = m'.entries) : m = m' := by
  cases m; cases m'; cases h; rfl

/-- Erasing an absent key changes nothing. -/
theorem erase_of_not_mem {m : StdMap V} {k : Int} (h : k ∉ m.keys) : m.erase k = m := by
  apply ext'
  simp only [erase, List.filter_eq_self, bne_iff_ne, ne_eq]
  intro e he hk
  exact h (List.mem_map.mpr ⟨e, he, hk⟩)

end StdMap

/-- `NetEventType`. -/
inductive NetEventType
  | newLink
  | delLink
  | newAddr
  | delAddr
  deriving DecidableEq, Repr

/-- The arguments of one callback call: `(nl, up, n)`. -/
structure NetEvent where
  nl : NetEventType
  up : Int
  n : String
  deriving DecidableEq, Repr

/-- The registry part of `NetworkMonitor`. -/
structure NetworkMonitor (CB : Type) where
  callbacks : StdMap CB
  curId : Int

namespace NetworkMonitor

variable {CB : Type}

/-- `NetworkMonitor::registerCallback(callback)`: the monitor and the id. -/
def registerCallback (nm : NetworkMonitor CB) (callback : CB) : NetworkMonitor CB × Int :=
  (⟨nm.callbacks.insert nm.curId callback, nm.curId + 1⟩, nm.curId)

/-- `NetworkMonitor::removeCallback(id)`. -/
def removeCallback (nm : NetworkMonitor CB) (id : Int) : NetworkMonitor CB :=
  { nm with callbacks := nm.callbacks.erase id }

/-- `NetworkMonitor::callCallbacks(nl, up, n)`: the calls it makes, in order,
each with the id and the callback called. -/
def callCallbacks (nm : NetworkMonitor CB) (nl : NetEventType) (up : Int) (n : String) :
    List (Int × CB × NetEvent) :=
  nm.callbacks.entries.map fun e => (e.1, e.2, ⟨nl, up, n⟩)

/-- An operation on the registry. -/
inductive Op (CB : Type)
  | register (callback : CB)
  | remove (id : Int)
  | call (nl : NetEventType) (up : Int) (n : String)

/-- What an operation returns: the new id, nothing, or the calls made. -/
inductive Out (CB : Type)
  | registered (id : Int)
  | removed
  | called (calls : List (Int × CB × NetEvent))

/-- One operation. -/
def step (nm : NetworkMonitor CB) : Op CB → NetworkMonitor CB × Out CB
  | .register cb => let r := nm.registerCallback cb; (r.1, .registered r.2)
  | .remove id => (nm.removeCallback id, .removed)
  | .call nl up n => (nm, .called (nm.callCallbacks nl up n))

/-- A run: the monitor at the end and the history of operations with what
each returned. -/
def run (nm : NetworkMonitor CB) : List (Op CB) → NetworkMonitor CB × List (Op CB × Out CB)
  | [] => (nm, [])
  | op :: ops =>
      let r := nm.step op
      let r' := run r.1 ops
      (r'.1, (op, r.2) :: r'.2)

/-- The monitor at start: no subscriber, and `curId` at the value its
declaration (not under src/) gives it. -/
def initial (curId : Int) : NetworkMonitor CB := ⟨.empty, curId⟩

/-- One entry of a history adds the id a registration returned. -/
def issueStep (acc : List Int) : Op CB × Out CB → List Int
  | (.register _, .registered id) => acc ++ [id]
  | _ => acc

/-- The ids a history's registrations returned, in order. -/
def issuedIds (h : List (Op CB × Out CB)) : List Int := h.foldl issueStep []

/-- One entry of a history on the subscriber list: a registration adds its
callback with its id, a removal drops the id. -/
def subscribeStep (acc : List (Int × CB)) : Op CB × Out CB → List (Int × CB)
  | (.register cb, .registered id) => acc ++ [(id, cb)]
  | (.remove id, _) => acc.filter fun s => s.1 != id
  | _ => acc

/-- The subscribers a history leaves, in registration order. -/
def subscribers (h : List (Op CB × Out CB)) : List (Int × CB) := h.foldl subscribeStep []

/-- The refinement invariant: the map holds exactly the history's
subscribers, and every id issued is below `curId`. -/
def RegistryInv (nm : NetworkMonitor CB) (h : List (Op CB × Out CB)) : Prop :=
  nm.callbacks.entries = subscribers h ∧ ∀ id ∈ issuedIds h, id < nm.curId

theorem run_append_singleton (nm : NetworkMonitor CB) (ops : List (Op CB)) (op : Op CB) :
    run nm (ops ++ [op]) =
      (((run nm ops).1.step op).1, (run nm ops).2 ++ [(op, ((run nm ops).1.step op).2)]) := by
  induction ops generalizing nm with
  | nil => rfl
  | cons o ops ih => simp [run, ih]

/-- Every subscriber's id was issued. -/
theorem fst_mem_issuedIds (h : List (Op CB × Out CB)) :
    ∀ e ∈ subscribers h, e.1 ∈ issuedIds h := by
  induction h using List.reverseRecOn with
  | nil => simp [subscribers]
  | append_singleton h e ih =>
      intro x hx
      simp only [subscribers, issuedIds, List.foldl_append, List.foldl_cons,
        List.foldl_nil] at hx ⊢
      rcases e with ⟨op, out⟩
      cases op <;> cases out <;> simp only [subscribeStep, issueStep] at hx ⊢
      all_goals first
        | exact ih x hx
        | exact ih x (List.mem_of_mem_filter hx)
        | rcases List.mem_append.mp hx with hx | hx
          · exact List.mem_append_left _ (ih x hx)
          · simp at hx; simp [hx]

variable (nm : NetworkMonitor CB) (h : List (Op CB × Out CB))

/-- **Step lemma.**  Every operation keeps the map and the counter in step with
the history. -/
theorem registryInv_step (hinv : RegistryInv nm h) (op : Op CB) :
    RegistryInv (nm.step op).1 (h ++ [(op, (nm.step op).2)]) := by
  obtain ⟨he, hlt⟩ := hinv
  cases op with
  | register cb =>
      have hkeys : ∀ e ∈ nm.callbacks.entries, e.1 < nm.curId :=
        fun e he' => hlt _ (fst_mem_issuedIds h e (he ▸ he'))
      refine ⟨?_, fun id hid => ?_⟩
      · simp only [step, registerCallback, StdMap.insert]
        rw [StdMap.insertAux_of_lt hkeys, he]
        simp [subscribers, subscribeStep]
      · simp only [step, registerCallback, issuedIds, List.foldl_append, List.foldl_cons,
          List.foldl_nil, issueStep, List.mem_append, List.mem_singleton] at hid ⊢
        rcases hid with hid | rfl
        · have := hlt id hid; omega
        · omega
  | remove id =>
      exact ⟨by simp [step, removeCallback, StdMap.erase, he, subscribers, subscribeStep],
        by simpa [step, removeCallback, issuedIds, issueStep] using hlt⟩
  | call nl up n =>
      exact ⟨by simpa [step, subscribers, subscribeStep] using he,
        by simpa [step, issuedIds, issueStep] using hlt⟩

/-- **Run lemma.** -/
theorem registryInv_run (curId : Int) (ops : List (Op CB)) :
    RegistryInv (run (initial curId) ops).1 (run (initial curId) ops).2 := by
  induction ops using List.reverseRecOn with
  | nil => exact ⟨rfl, by simp [run, issuedIds]⟩
  | append_singleton ops op ih =>
      rw [run_append_singleton]
      exact registryInv_step _ _ ih op

/-- **The callback registry.**  After any sequence `ops` of registrations,
removals and dispatches from the monitor at start: registering returns an id
never issued before and adds the callback without replacing any subscriber;
a dispatch calls every subscriber of the history exactly once, with its own
arguments, in ascending id order, and nothing else; and removing an id that is
not subscribed (never issued, or removed since) changes nothing. -/
theorem registry_run {CB : Type} (curId : Int) (ops : List (Op CB)) :
    (∀ cb, ((run (initial curId) ops).1.registerCallback cb).2 ∉
        issuedIds (run (initial curId) ops).2 ∧
      ((run (initial curId) ops).1.registerCallback cb).1.callbacks.entries =
        subscribers (run (initial curId) ops).2 ++
          [(((run (initial curId) ops).1.registerCallback cb).2, cb)]) ∧
    (∀ nl up n, (run (initial curId) ops).1.callCallbacks nl up n =
      (subscribers (run (initial curId) ops).2).map fun e => (e.1, e.2, ⟨nl, up, n⟩)) ∧
    (subscribers (run (initial curId) ops).2).Pairwise (fun a b => a.1 < b.1) ∧
    (∀ id, id ∉ (subscribers (run (initial curId) ops).2).map Prod.fst →
      (run (initial curId) ops).1.removeCallback id = (run (initial curId) ops).1) := by
  obtain ⟨he, hlt⟩ := registryInv_run curId ops
  set nm := (run (initial curId) ops).1
  set h := (run (initial curId) ops).2
  have hkeys : ∀ e ∈ nm.callbacks.entries, e.1 < nm.curId :=
    fun e he' => hlt _ (fst_mem_issuedIds h e (he ▸ he'))
  refine ⟨fun cb => ⟨fun hid => Int.lt_irrefl _ (hlt _ hid), ?_⟩, fun nl up n => ?_, he ▸ nm.callbacks.sorted,
    fun id hid => ?_⟩
  · simp only [registerCallback, StdMap.insert]
    rw [StdMap.insertAux_of_lt hkeys, he]
  · simp [callCallbacks, he]
  · unfold removeCallback
    rw [StdMap.erase_of_not_mem (by simpa [StdMap.keys, he] using hid)]

end NetworkMonitor
