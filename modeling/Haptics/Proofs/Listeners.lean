import Haptics.Listeners
import Mathlib.Data.List.Nodup
import Mathlib.Data.List.TakeWhile

/-!
# What listeners hear

Listeners come and go between changes of state, and a state that everyone knows may be told again.
To say what one of them hears, listeners are registered together with the numbers that they get
(`withNumbers`); what is delivered under a number has been heard by the listener of that
number, and by nobody else (`deliveries_eq_numbered`).

* `Own.heard_of_present`: who is on the list hears each change of state, in turn.
* `Own.heard_of_gone`, `Own.heard_of_coming`: who has been taken off it hears nothing more, and who
  comes onto it hears the state first.
* `isChain_changes`, `getLast?_changes`: the changes alternate, and the last of them is the state.
* `listeners_hear_changes`: what a listener hears from its registration on, in every sequence of
  operations, and when it is taken off the list.
-/

namespace Haptics

namespace Listeners

variable {α β : Type}

/-! ## Operations -/

/-- Something that is done to the listeners. -/
inductive Operation (α : Type) where
  /-- A listener is put on the list. -/
  | register (listener : α)
  /-- The listener of a number is taken off the list. -/
  | unregister (id : Nat)
  /-- Everyone is told the state. -/
  | notify (vibrating : Bool)

namespace Operation

/-- The same with other listeners. -/
def map (f : α → β) : Operation α → Operation β
  | register listener => register (f listener)
  | unregister id => unregister id
  | notify vibrating => notify vibrating

/-- How many numbers the operation gives out. -/
def issues : Operation α → Nat
  | register _ => 1
  | _ => 0

/-- Whether the listener of a number is taken off the list, if it is on it. -/
def removes (id : Nat) : Operation α → Bool
  | unregister id' => id' = id
  | _ => false

/-- The new state, if the operation tells one to listeners that know a state. -/
def change? (known : Bool) : Operation α → Option Bool
  | notify vibrating => if known = vibrating then none else some vibrating
  | _ => none

end Operation

/-- The deliveries that an operation makes, and the listeners afterwards. -/
def perform (l : Listeners α) : Operation α → List (α × Bool) × Listeners α
  | .register listener => (l.register listener).2
  | .unregister id => ([], (l.unregister id).2)
  | .notify vibrating => l.notify vibrating

/-- The listeners after operations in turn. -/
def performAll (l : Listeners α) (ops : List (Operation α)) : Listeners α :=
  ops.foldl (fun l o => (l.perform o).2) l

/-- The deliveries that operations make in turn. -/
def deliveries : List (Operation α) → Listeners α → List (α × Bool)
  | [], _ => []
  | o :: rest, l => (l.perform o).1 ++ deliveries rest (l.perform o).2

/-- How many numbers operations give out. -/
def issuances : List (Operation α) → Nat
  | [] => 0
  | o :: rest => o.issues + issuances rest

/-- The numbers that operations give out in turn. -/
def issued : List (Operation α) → Listeners α → List Nat
  | [], _ => []
  | .register listener :: rest, l =>
    (l.register listener).1 :: issued rest (l.perform (.register listener)).2
  | o :: rest, l => issued rest (l.perform o).2

/-- What is answered in turn where the listener of a number is taken off the list. -/
def answers (id : Nat) : List (Operation α) → Listeners α → List Bool
  | [], _ => []
  | o :: rest, l =>
    (if o.removes id then [(l.unregister id).1] else []) ++ answers id rest (l.perform o).2

/-- The new states that operations tell in turn, from a state that everyone knows on. -/
def changes : Bool → List (Operation α) → List Bool
  | _, [] => []
  | known, o :: rest => (o.change? known).toList ++ changes ((o.change? known).getD known) rest

/-- The numbers on the list, in the order of registration. -/
def ids (l : Listeners α) : List Nat := l.entries.map (·.1)

variable {l : Listeners α} {id : Nat}

/-- Operations are done one by one. -/
@[simp] theorem performAll_cons (l : Listeners α) (o : Operation α) (rest : List (Operation α)) :
    l.performAll (o :: rest) = (l.perform o).2.performAll rest := rfl

/-- Operations in two parts are done one part after the other. -/
theorem performAll_append (l : Listeners α) (first second : List (Operation α)) :
    l.performAll (first ++ second) = (l.performAll first).performAll second :=
  List.foldl_append

/-- So it is with what they deliver. -/
theorem deliveries_append (first second : List (Operation α)) (l : Listeners α) :
    l.deliveries (first ++ second) =
      l.deliveries first ++ (l.performAll first).deliveries second := by
  induction first generalizing l with
  | nil => rfl
  | cons o rest ih =>
    change _ ++ deliveries (rest ++ second) _ = _ ++ deliveries rest _ ++ _
    rw [ih, List.append_assoc]
    rfl

/-! ## The state that is told -/

/-- What is known last is what has been told last. -/
theorem vibrating_perform (l : Listeners α) (o : Operation α) :
    (l.perform o).2.vibrating = (o.change? l.vibrating).getD l.vibrating := by
  cases o with
  | register listener => rfl
  | unregister id => rfl
  | notify vibrating =>
    change (l.notify vibrating).2.vibrating = _
    rw [vibrating_notify, Operation.change?]
    split
    · next h => exact h.symm
    · rfl

/-- **The changes alternate**, from the state that everyone knows on. -/
theorem isChain_changes (known : Bool) (ops : List (Operation α)) :
    List.IsChain (· ≠ ·) (known :: changes known ops) := by
  induction ops generalizing known with
  | nil => exact .singleton known
  | cons o rest ih =>
    rw [changes]
    cases hc : o.change? known with
    | none => exact ih known
    | some vibrating =>
      refine .cons_cons ?_ (ih vibrating)
      cases o with
      | notify v =>
        rw [Operation.change?] at hc
        split at hc
        · cases hc
        · next hne =>
          cases hc
          exact hne
      | _ => cases hc

/-- **The last change is the state** that everyone knows afterwards. -/
theorem getLast?_changes (l : Listeners α) (ops : List (Operation α)) :
    (l.vibrating :: changes l.vibrating ops).getLast? = some (l.performAll ops).vibrating := by
  induction ops generalizing l with
  | nil => rfl
  | cons o rest ih =>
    have hrest := ih (l.perform o).2
    rw [vibrating_perform] at hrest
    rw [changes]
    cases hc : o.change? l.vibrating with
    | none =>
      rw [hc] at hrest
      exact hrest
    | some vibrating =>
      rw [hc] at hrest
      rw [← List.getLast?_cons_cons (a := l.vibrating)] at hrest
      exact hrest

/-! ## Who is on the list -/

/-- The next number moves on with every listener that comes. -/
theorem nextId_perform (l : Listeners α) (o : Operation α) :
    (l.perform o).2.nextId = l.nextId + o.issues := by
  cases o with
  | register listener => rfl
  | unregister id => rfl
  | notify vibrating =>
    change (l.notify vibrating).2.nextId = _
    unfold notify
    split <;> rfl

/-- A listener that comes is last, under the next number. -/
@[simp] theorem ids_register (l : Listeners α) (listener : α) :
    (l.perform (.register listener)).2.ids = l.ids ++ [l.nextId] := by
  simp [perform, register, ids]

/-- To tell them leaves the listeners where they are. -/
@[simp] theorem ids_notify (l : Listeners α) (vibrating : Bool) :
    (l.perform (.notify vibrating)).2.ids = l.ids := by
  change (l.notify vibrating).2.ids = _
  unfold notify
  split <;> rfl

/-- To take a listener off the list leaves every other number where it is. -/
theorem ids_unregister (l : Listeners α) (id : Nat) :
    (l.unregister id).2.ids = l.ids.filter (· ≠ id) := by
  rw [unregister, ids, ids, List.filter_map]
  rfl

/-- A listener is taken off the list if it is on it. -/
theorem fst_unregister (l : Listeners α) (id : Nat) :
    (l.unregister id).1 = decide (id ∈ l.ids) := by
  rw [Bool.eq_iff_iff, decide_eq_true_iff, unregister, ids, List.any_eq_true, List.mem_map]
  simp only [decide_eq_true_eq]

/-- Who is on the list stays there until it is taken off; nobody else comes but under the next
number. -/
theorem mem_ids_perform (l : Listeners α) (o : Operation α) (id : Nat) :
    id ∈ (l.perform o).2.ids ↔
      (id ∈ l.ids ∧ o.removes id = false) ∨ (o.issues = 1 ∧ id = l.nextId) := by
  cases o with
  | register listener => simp [Operation.removes, Operation.issues]
  | notify vibrating => simp [Operation.removes, Operation.issues]
  | unregister id' =>
    rw [perform, ids_unregister, List.mem_filter]
    simp [Operation.removes, Operation.issues, ne_comm]

/-- Every number is given out once, and is below the next one. -/
structure Numbered (l : Listeners α) : Prop where
  lt : ∀ id ∈ l.ids, id < l.nextId
  nodup : l.ids.Nodup

/-- Where nobody has come the numbers are right. -/
theorem numbered_start : ({} : Listeners α).Numbered := ⟨by simp [ids], List.nodup_nil⟩

/-- An operation leaves the numbers right. -/
theorem Numbered.perform (h : l.Numbered) (o : Operation α) : (l.perform o).2.Numbered := by
  refine ⟨fun id hid => ?_, ?_⟩
  · rw [nextId_perform]
    rcases (mem_ids_perform l o id).1 hid with ⟨hid, -⟩ | ⟨hone, rfl⟩
    · exact Nat.lt_add_right _ (h.lt id hid)
    · omega
  · cases o with
    | register listener =>
      rw [ids_register, List.nodup_append]
      refine ⟨h.nodup, List.nodup_singleton _, fun id hid next hnext => ?_⟩
      rw [List.mem_singleton.1 hnext]
      exact (h.lt id hid).ne
    | notify vibrating => rw [ids_notify]; exact h.nodup
    | unregister id => exact (ids_unregister l id).symm ▸ h.nodup.filter _

/-! ## What is delivered to whom -/

/-- The same list with other listeners. -/
def map (f : α → β) (l : Listeners α) : Listeners β :=
  { l with entries := l.entries.map fun entry => (entry.1, f entry.2) }

/-- The list does not look at its listeners. -/
theorem perform_map (f : α → β) (l : Listeners α) (o : Operation α) :
    (l.map f).perform (o.map f) =
      ((l.perform o).1.map fun d => (f d.1, d.2), (l.perform o).2.map f) := by
  cases o with
  | register listener => simp [perform, register, map, Operation.map]
  | unregister id =>
    simp [perform, unregister, map, Operation.map, List.filter_map, Function.comp_def]
  | notify vibrating =>
    by_cases h : l.vibrating = vibrating <;> simp [perform, notify, map, Operation.map, h]

/-- What is delivered does not depend on who the listeners are. -/
theorem deliveries_map (f : α → β) (ops : List (Operation α)) (l : Listeners α) :
    (l.map f).deliveries (ops.map (·.map f)) =
      (l.deliveries ops).map fun d => (f d.1, d.2) := by
  induction ops generalizing l with
  | nil => rfl
  | cons o rest ih =>
    rw [List.map_cons, deliveries, perform_map, deliveries, List.map_append]
    exact congrArg _ (ih _)

/-- So it is with who listens afterwards. -/
theorem performAll_map (f : α → β) (ops : List (Operation α)) (l : Listeners α) :
    (l.map f).performAll (ops.map (·.map f)) = (l.performAll ops).map f := by
  induction ops generalizing l with
  | nil => rfl
  | cons o rest ih =>
    change (((l.map f).perform (o.map f)).2).performAll _ = _
    rw [perform_map]
    exact ih _

/-- The operations, where each listener comes with the number that it gets, the first one with
`next`. -/
def withNumbers (next : Nat) : List (Operation α) → List (Operation (Nat × α))
  | [] => []
  | o :: rest => o.map (next, ·) :: withNumbers (next + o.issues) rest

/-- What is delivered under a number. -/
def received (id : Nat) (deliveries : List ((Nat × α) × Bool)) : List Bool :=
  (deliveries.filter (·.1.1 = id)).map (·.2)

/-- Without the numbers the operations are the same again. -/
theorem map_snd_withNumbers (next : Nat) (ops : List (Operation α)) :
    (withNumbers next ops).map (·.map Prod.snd) = ops := by
  induction ops generalizing next with
  | nil => rfl
  | cons o rest ih =>
    rw [withNumbers, List.map_cons, ih]
    cases o <;> rfl

/-- **What is delivered is what is delivered under numbers.** -/
theorem deliveries_eq_numbered (ops : List (Operation α)) :
    ({} : Listeners α).deliveries ops =
      (({} : Listeners (Nat × α)).deliveries (withNumbers 1 ops)).map fun d => (d.1.2, d.2) := by
  have h := deliveries_map Prod.snd (withNumbers 1 ops) ({} : Listeners (Nat × α))
  rwa [map_snd_withNumbers] at h

/-- Every listener comes with its number. -/
structure Own (l : Listeners (Nat × α)) : Prop extends l.Numbered where
  own : ∀ entry ∈ l.entries, entry.2.1 = entry.1

section own

variable {l : Listeners (Nat × α)}

/-- Where nobody has come everybody has his own number. -/
theorem own_start : ({} : Listeners (Nat × α)).Own := ⟨numbered_start, by simp⟩

/-- Whoever comes under the next number has his own. -/
theorem Own.perform (h : l.Own) (o : Operation α) :
    (l.perform (o.map (l.nextId, ·))).2.Own := by
  refine ⟨h.toNumbered.perform _, fun entry he => ?_⟩
  cases o with
  | register listener =>
    rcases List.mem_append.1 he with he | he
    · exact h.own entry he
    · rw [List.mem_singleton.1 he]
  | unregister id => exact h.own entry (List.mem_filter.1 he).1
  | notify vibrating =>
    refine h.own entry ?_
    change entry ∈ (l.notify vibrating).2.entries at he
    unfold notify at he
    split at he <;> exact he

/-- What everyone is told is delivered to each listener on the list. -/
theorem Own.received_told (h : l.Own) (id : Nat) (vibrating : Bool) :
    received id (l.entries.map fun entry => (entry.2, vibrating)) =
      List.replicate (l.ids.count id) vibrating := by
  have hown : l.entries.map (fun entry => (entry.2, vibrating)) =
      l.entries.map fun entry => ((entry.1, entry.2.2), vibrating) :=
    List.map_congr_left fun entry he => by rw [← h.own entry he]
  unfold received ids
  rw [hown]
  generalize l.entries = entries
  induction entries with
  | nil => rfl
  | cons entry rest ih =>
    by_cases hid : entry.1 = id
    · simpa [hid, List.replicate_succ] using ih
    · simpa [hid] using ih

/-- Who is on the list hears each new state. -/
theorem Own.received_of_present (h : l.Own) {id : Nat} (hid : id ∈ l.ids) (o : Operation α) :
    received id (l.perform (o.map (l.nextId, ·))).1 = (o.change? l.vibrating).toList := by
  cases o with
  | register listener =>
    have hne : l.nextId ≠ id := (h.lt id hid).ne'
    simp [Operation.map, Operation.change?, Listeners.perform, register, received, hne]
  | unregister id' => rfl
  | notify vibrating =>
    change received id (l.notify vibrating).1 =
      (if l.vibrating = vibrating then none else some vibrating).toList
    unfold notify
    split
    · rfl
    · rw [h.received_told, List.count_eq_one_of_mem h.nodup hid]
      rfl

/-- Who is not on the list, and is not put on it, hears nothing. -/
theorem Own.received_of_absent (h : l.Own) {id : Nat} (hid : id ∉ l.ids) {o : Operation α}
    (hnew : o.issues = 1 → id ≠ l.nextId) :
    received id (l.perform (o.map (l.nextId, ·))).1 = [] := by
  cases o with
  | register listener =>
    have hne : l.nextId ≠ id := (hnew rfl).symm
    simp [Operation.map, Listeners.perform, register, received, hne]
  | unregister id' => rfl
  | notify vibrating =>
    change received id (l.notify vibrating).1 = _
    unfold notify
    split
    · rfl
    · rw [h.received_told, List.count_eq_zero.2 hid]
      rfl

end own

/-! ## What is heard in turn -/

section turns

variable {ops rest : List (Operation α)} {o : Operation α}

/-- Numbers are given out one by one. -/
theorem issued_cons (o : Operation α) (rest : List (Operation α)) (l : Listeners α) :
    issued (o :: rest) l =
      (if o.issues = 1 then [l.nextId] else []) ++ issued rest (l.perform o).2 := by
  cases o <;> rfl

/-- Only numbers from the next one on are given out. -/
theorem le_of_mem_issued (h : id ∈ issued ops l) : l.nextId ≤ id := by
  induction ops generalizing l with
  | nil => cases h
  | cons o rest ih =>
    rw [issued_cons, List.mem_append] at h
    rcases h with h | h
    · split at h
      · exact (List.mem_singleton.1 h).ge
      · cases h
    · have hle := ih h
      rw [nextId_perform] at hle
      exact (Nat.le_add_right ..).trans hle

/-- So it is for operations in two parts. -/
theorem issued_append (first second : List (Operation α)) (l : Listeners α) :
    issued (first ++ second) l = issued first l ++ issued second (l.performAll first) := by
  induction first generalizing l with
  | nil => rfl
  | cons o rest ih =>
    rw [List.cons_append, issued_cons, issued_cons, ih, List.append_assoc, performAll_cons]

/-- **No number is given out twice.** -/
theorem pairwise_issued (ops : List (Operation α)) (l : Listeners α) :
    (issued ops l).Pairwise (· < ·) := by
  induction ops generalizing l with
  | nil => exact .nil
  | cons o rest ih =>
    rw [issued_cons]
    split
    · next hone =>
      refine List.pairwise_cons.2 ⟨fun id hid => ?_, ih _⟩
      have hle := le_of_mem_issued hid
      rw [nextId_perform, hone] at hle
      exact hle
    · exact ih _

/-- The next number moves on with all that are given out. -/
theorem nextId_performAll (l : Listeners α) (ops : List (Operation α)) :
    (l.performAll ops).nextId = l.nextId + issuances ops := by
  induction ops generalizing l with
  | nil => rfl
  | cons o rest ih =>
    change ((l.perform o).2.performAll rest).nextId = _
    rw [ih, nextId_perform, issuances, Nat.add_assoc]

/-- Who has been taken off the list stays away, as its number is not given out again. -/
theorem not_mem_ids_perform (hid : id ∉ l.ids) (hlt : id < l.nextId) (o : Operation α) :
    id ∉ (l.perform o).2.ids ∧ id < (l.perform o).2.nextId := by
  refine ⟨fun hmem => ?_, ?_⟩
  · rcases (mem_ids_perform l o id).1 hmem with ⟨hmem, -⟩ | ⟨-, heq⟩
    · exact hid hmem
    · exact hlt.ne heq
  · rw [nextId_perform]
    exact Nat.lt_add_right _ hlt

/-- Who is on the list is taken off it, or stays. -/
theorem Numbered.mem_or_gone (h : l.Numbered) (hid : id ∈ l.ids) (o : Operation α) :
    if o.removes id then id ∉ (l.perform o).2.ids ∧ id < (l.perform o).2.nextId
    else id ∈ (l.perform o).2.ids := by
  have hlt := h.lt id hid
  split
  · next hr =>
    refine ⟨fun hmem => ?_, ?_⟩
    · rcases (mem_ids_perform l o id).1 hmem with ⟨-, hkept⟩ | ⟨-, heq⟩
      · rw [hr] at hkept
        cases hkept
      · exact hlt.ne heq
    · rw [nextId_perform]
      exact Nat.lt_add_right _ hlt
  · next hr => exact (mem_ids_perform l o id).2 (.inl ⟨hid, Bool.not_eq_true _ ▸ hr⟩)

section heard

variable {l : Listeners (Nat × α)}

/-- What is received in two parts is received one part after the other. -/
theorem received_append (id : Nat) (first second : List ((Nat × α) × Bool)) :
    received id (first ++ second) = received id first ++ received id second := by
  unfold received
  rw [List.filter_append, List.map_append]

/-- What is delivered under numbers is what the first operation delivers, and then the rest. -/
theorem deliveries_withNumbers_cons (o : Operation α) (rest : List (Operation α))
    (l : Listeners (Nat × α)) :
    l.deliveries (withNumbers l.nextId (o :: rest)) =
      (l.perform (o.map (l.nextId, ·))).1 ++
        (l.perform (o.map (l.nextId, ·))).2.deliveries
          (withNumbers (l.perform (o.map (l.nextId, ·))).2.nextId rest) := by
  have hn : l.nextId + o.issues = (l.perform (o.map (l.nextId, ·))).2.nextId := by
    rw [nextId_perform]
    cases o <;> rfl
  rw [withNumbers, hn]
  rfl

/-- **Who has been taken off the list hears nothing.** -/
theorem Own.heard_of_gone (h : l.Own) (hid : id ∉ l.ids) (hlt : id < l.nextId)
    (ops : List (Operation α)) :
    received id (l.deliveries (withNumbers l.nextId ops)) = [] := by
  induction ops generalizing l with
  | nil => rfl
  | cons o rest ih =>
    obtain ⟨hid', hlt'⟩ := not_mem_ids_perform hid hlt (o.map (l.nextId, ·))
    rw [deliveries_withNumbers_cons, received_append, h.received_of_absent hid fun _ => hlt.ne,
      ih (h.perform o) hid' hlt']
    rfl

/-- **Who is on the list hears each new state**, until it is taken off. -/
theorem Own.heard_of_present (h : l.Own) (hid : id ∈ l.ids) (ops : List (Operation α)) :
    received id (l.deliveries (withNumbers l.nextId ops)) =
      changes l.vibrating (ops.takeWhile fun o => !o.removes id) := by
  induction ops generalizing l with
  | nil => rfl
  | cons o rest ih =>
    have hnext := h.toNumbered.mem_or_gone hid (o.map (l.nextId, ·))
    have hr : (o.map (l.nextId, ·)).removes id = o.removes id := by cases o <;> rfl
    have hc : (o.map (l.nextId, ·)).change? l.vibrating = o.change? l.vibrating := by
      cases o <;> rfl
    rw [hr] at hnext
    rw [deliveries_withNumbers_cons, received_append, h.received_of_present hid]
    cases hremoves : o.removes id with
    | true =>
      rw [hremoves, if_pos rfl] at hnext
      have hquiet : o.change? l.vibrating = none := by
        cases o with
        | unregister id' => rfl
        | _ => cases hremoves
      rw [(h.perform o).heard_of_gone hnext.1 hnext.2, hquiet]
      simp [hremoves, changes]
    | false =>
      rw [hremoves, if_neg (by decide)] at hnext
      rw [ih (h.perform o) hnext, vibrating_perform, hc]
      simp [hremoves, changes]

/-- **What a listener hears that comes to the list**: the state at that time, and each new one. -/
theorem Own.heard_of_coming (h : l.Own) (before : List (Operation α)) (listener : α)
    (later : List (Operation α)) (hid : id = l.nextId + issuances before) :
    received id (l.deliveries (withNumbers l.nextId (before ++ .register listener :: later))) =
      (l.performAll (withNumbers l.nextId before)).vibrating ::
        changes (l.performAll (withNumbers l.nextId before)).vibrating
          (later.takeWhile fun o => !o.removes id) := by
  induction before generalizing l with
  | nil =>
    obtain rfl : id = l.nextId := hid
    have hpresent : l.nextId ∈ (l.perform (.register (l.nextId, listener))).2.ids := by
      rw [ids_register]
      exact List.mem_append_right _ (List.mem_singleton.2 rfl)
    have hlater := (h.perform (.register listener)).heard_of_present hpresent later
    rw [List.nil_append, deliveries_withNumbers_cons, received_append]
    refine (congrArg _ hlater).trans ?_
    simp [Listeners.perform, register, received, Operation.map, performAll, withNumbers]
  | cons o rest ih =>
    have hn : (l.perform (o.map (l.nextId, ·))).2.nextId = l.nextId + o.issues := by
      rw [nextId_perform]
      cases o <;> rfl
    rw [issuances] at hid
    have habsent : id ∉ l.ids := fun hmem => (h.lt id hmem).not_ge (by omega)
    have hcoming := ih (h.perform o) (by rw [hn]; omega)
    rw [List.cons_append, deliveries_withNumbers_cons, received_append,
      h.received_of_absent habsent fun hone => by omega, List.nil_append, hcoming, hn]
    rfl

end heard

/-! ## Whether a listener is on the list -/

/-- Who has been taken off the list is not taken off again. -/
theorem answers_of_gone (hid : id ∉ l.ids) (hlt : id < l.nextId) (ops : List (Operation α)) :
    (answers id ops l).count true = 0 ∧ id ∉ (l.performAll ops).ids := by
  induction ops generalizing l with
  | nil => exact ⟨rfl, hid⟩
  | cons o rest ih =>
    obtain ⟨hid', hlt'⟩ := not_mem_ids_perform hid hlt o
    obtain ⟨hcount, hgone⟩ := ih hid' hlt'
    refine ⟨?_, hgone⟩
    rw [answers, List.count_append, hcount, fst_unregister]
    split <;> simp [hid]

/-- **Who is on the list is taken off once**, or stays there. -/
theorem Numbered.answers_of_present (h : l.Numbered) (hid : id ∈ l.ids)
    (ops : List (Operation α)) :
    (answers id ops l).count true = (ops.any (·.removes id)).toNat ∧
      (id ∈ (l.performAll ops).ids ↔ ops.any (·.removes id) = false) := by
  induction ops generalizing l with
  | nil => exact ⟨rfl, by simpa [Listeners.performAll] using hid⟩
  | cons o rest ih =>
    have hnext := h.mem_or_gone hid o
    rw [answers, List.count_append, List.any_cons, fst_unregister]
    cases hr : o.removes id with
    | true =>
      rw [hr, if_pos rfl] at hnext
      obtain ⟨hcount, hgone⟩ := answers_of_gone hnext.1 hnext.2 rest
      rw [hcount]
      exact ⟨by simp [hid], by simpa using hgone⟩
    | false =>
      rw [hr, if_neg (by decide)] at hnext
      simpa using ih (h.perform o) hnext

/-- Who is still to come is not taken off the list before. -/
theorem Numbered.answers_of_coming (h : l.Numbered) (before : List (Operation α)) (listener : α)
    (later : List (Operation α)) (hid : id = l.nextId + issuances before) :
    (answers id (before ++ .register listener :: later) l).count true =
        (later.any (·.removes id)).toNat ∧
      (id ∈ (l.performAll (before ++ .register listener :: later)).ids ↔
        later.any (·.removes id) = false) := by
  induction before generalizing l with
  | nil =>
    obtain rfl : id = l.nextId := hid
    have hpresent : l.nextId ∈ (l.perform (.register listener)).2.ids := by
      rw [ids_register]
      exact List.mem_append_right _ (List.mem_singleton.2 rfl)
    exact (h.perform (.register listener)).answers_of_present hpresent later
  | cons o rest ih =>
    rw [issuances] at hid
    have habsent : id ∉ l.ids := fun hmem => (h.lt id hmem).not_ge (by omega)
    have hcoming := ih (h.perform o) (by rw [nextId_perform]; omega)
    rw [List.cons_append, answers, List.count_append, fst_unregister]
    refine ⟨?_, hcoming.2⟩
    rw [hcoming.1]
    split <;> simp [habsent]

end turns

/-- **A listener hears the state at its registration, and from then on each change**, in every
sequence of operations.

* What is delivered is what is delivered under numbers. Under the number of a listener comes the
  state that is known when it registers, and then, until it is taken off the list, each new state
  that is told, in turn, and nothing else. So what it hears alternates, and while it is on the list
  the last that it has heard is the state.
* No number is given out twice. Of all the attempts to take a listener off the list, one succeeds
  if there is any after its registration, and then the listener is on the list no more. An attempt
  says whether it has found the listener, and leaves everyone else on the list. -/
theorem listeners_hear_changes (before : List (Operation α)) (listener : α)
    (later : List (Operation α)) :
    let start : Listeners α := {}
    let ops := before ++ .register listener :: later
    let met := start.performAll before
    let now := start.performAll ops
    let id := (met.register listener).1
    let numbered := ({} : Listeners (Nat × α)).deliveries (withNumbers 1 ops)
    let heard := received id numbered
    (start.deliveries ops = numbered.map fun d => (d.1.2, d.2)) ∧
    (heard = met.vibrating :: changes met.vibrating (later.takeWhile fun o => !o.removes id) ∧
      heard.IsChain (· ≠ ·) ∧
      (later.any (·.removes id) = false → heard.getLast? = some now.vibrating)) ∧
    ((issued ops start).Nodup ∧ id ∈ issued ops start) ∧
    ((answers id ops start).count true = (later.any (·.removes id)).toNat ∧
      (id ∈ now.ids ↔ later.any (·.removes id) = false)) ∧
    ∀ other, (now.unregister other).1 = decide (other ∈ now.ids) ∧
      ∀ entry, entry ∈ (now.unregister other).2.entries ↔
        entry ∈ now.entries ∧ entry.1 ≠ other := by
  intro start ops met now id numbered heard
  have hid : id = 1 + issuances before := nextId_performAll start before
  have hmet : (({} : Listeners (Nat × α)).performAll (withNumbers 1 before)).vibrating =
      met.vibrating := by
    have hmap := performAll_map Prod.snd (withNumbers 1 before) ({} : Listeners (Nat × α))
    rw [map_snd_withNumbers] at hmap
    exact (congrArg vibrating hmap).symm
  have hheard : heard = met.vibrating ::
      changes met.vibrating (later.takeWhile fun o => !o.removes id) := by
    have hcoming := own_start.heard_of_coming before listener later hid
    rwa [hmet] at hcoming
  refine ⟨deliveries_eq_numbered ops, ⟨hheard, ?_, fun hstays => ?_⟩, ⟨?_, ?_⟩,
    numbered_start.answers_of_coming before listener later hid, fun other => ⟨?_, fun entry => ?_⟩⟩
  · rw [hheard]
    exact isChain_changes ..
  · have hall : later.takeWhile (fun o => !o.removes id) = later := by
      rw [List.takeWhile_eq_self_iff]
      simpa using hstays
    rw [hheard, hall]
    have hnow : now = (met.perform (.register listener)).2.performAll later :=
      performAll_append start before (.register listener :: later)
    rw [hnow]
    exact getLast?_changes (met.perform (.register listener)).2 later
  · exact (pairwise_issued ops start).imp Nat.ne_of_lt
  · rw [issued_append]
    exact List.mem_append_right _ List.mem_cons_self
  · exact fst_unregister ..
  · simp [unregister]

/-- A lamp is on the list when the motor starts, and leaves before it stops. -/
def lampLeaves : List (Operation String) := [.register "lamp", .notify true]

/-- A log comes while the motor runs. What everyone knows is told again; then the motor stops and
starts. -/
def logStays : List (Operation String) :=
  [.notify true, .unregister 1, .notify false, .unregister 1, .notify true]

/-- The log hears that the motor runs, that it stops and that it starts; the lamp hears nothing
after it has left, and is taken off the list once. -/
theorem listeners_hear_changes_log :
    let start : Listeners String := {}
    let ops := lampLeaves ++ .register "log" :: logStays
    let now := start.performAll ops
    let heard :=
      received 2 (({} : Listeners (Nat × String)).deliveries (withNumbers 1 ops))
    logStays.any (·.removes 2) = false ∧
    start.deliveries ops =
      [("lamp", false), ("lamp", true), ("log", true), ("log", false), ("log", true)] ∧
    heard = true :: changes true (logStays.takeWhile fun o => !o.removes 2) ∧
    heard = [true, false, true] ∧ heard.getLast? = some now.vibrating ∧
    (answers 1 ops start).count true = 1 := by
  intro start ops now heard
  obtain ⟨-, ⟨hheard, -, hlast⟩, -⟩ := listeners_hear_changes lampLeaves "log" logStays
  have hlamp := (listeners_hear_changes [] "lamp" (.notify true :: .register "log" :: logStays)
    ).2.2.2.1.1
  exact ⟨rfl, by decide, hheard, by decide, hlast rfl, hlamp⟩

end Listeners

end Haptics
