import Haptics.AlwaysOn.Trial
import Haptics.Proofs.Actuator.Log
import Haptics.Proofs.Scheduler.Talk
import Haptics.Proofs.Table
import Mathlib.Logic.Function.Basic

/-!
# Calls about always-on effects

An actuator holds a table of always-on effects, one for each channel and number. It *obeys* calls
about them (`Obeys`) if a call that it takes has its effect on the table and a call that it refuses
has none. Which calls are refused is left open; the bench may refuse any of them (`obeys_trial`).

* `holds_issueAll`: what no call of a list can end holds wherever they stop.
* `present_issueAll`: wherever calls in turn stop, only those that enable a channel have put an
  effect in the table.
* `view_issueAll`: calls that are all taken have their effects one after another.
-/

namespace Haptics

/-- The always-on effects that an actuator holds. -/
abbrev AlwaysOnTable := AlwaysOnKey → Option Prebaked

/-- What an order makes of the always-on effects. -/
def Order.onTable : Order → AlwaysOnTable → AlwaysOnTable
  | alwaysOnEnable channel id effect, table => Function.update table ⟨channel, id⟩ (some effect)
  | alwaysOnDisable channel id, table => Function.update table ⟨channel, id⟩ none
  | _, table => table

/-- Only an order that enables a channel puts an effect there. -/
theorem Order.present_onTable {o : Order} {table : AlwaysOnTable} {k : AlwaysOnKey}
    (h : o.onTable table k ≠ none) :
    table k ≠ none ∨ ∃ effect, o = .alwaysOnEnable k.channel k.id effect := by
  unfold Order.onTable at h
  split at h
  · next channel id effect =>
    by_cases hk : k = ⟨channel, id⟩
    · exact .inr ⟨effect, by rw [hk]⟩
    · rw [Function.update_of_ne hk] at h
      exact .inl h
  · next channel id =>
    by_cases hk : k = ⟨channel, id⟩
    · rw [hk, Function.update_self] at h
      exact absurd rfl h
    · rw [Function.update_of_ne hk] at h
      exact .inl h
  · exact .inl h

namespace AlwaysOn

variable {τ : Type}

/-- Whether the always-on effects, read off the state of an actuator, follow the calls: one that is
taken has its effect, one that fails has none. -/
structure Obeys (issue : Order → τ → Except Failure Nat × τ) (view : τ → AlwaysOnTable) :
    Prop where
  /-- A call that is taken has its effect. -/
  taken : ∀ {o : Order} {t t' : τ} {reported : Nat}, o.isAlwaysOn = true →
    issue o t = (.ok reported, t') → view t' = o.onTable (view t)
  /-- A call that fails has none. -/
  refused : ∀ {o : Order} {t t' : τ} {e : Failure}, o.isAlwaysOn = true →
    issue o t = (.error e, t') → view t' = view t

/-- The always-on effects after orders that were taken one after another. -/
def tableAfter (orders : List Order) (table : AlwaysOnTable) : AlwaysOnTable :=
  orders.foldl (fun table o => o.onTable table) table

/-! ## Tables after orders -/

section tableAfter

variable (table : AlwaysOnTable) (k : AlwaysOnKey)

/-- No orders leave the table as it is. -/
@[simp] theorem tableAfter_nil : tableAfter [] table = table := rfl

/-- The first order is carried out first. -/
@[simp] theorem tableAfter_cons (o : Order) (orders : List Order) :
    tableAfter (o :: orders) table = tableAfter orders (o.onTable table) := rfl

/-- Orders in two parts are carried out one part after the other. -/
theorem tableAfter_append (first second : List Order) :
    tableAfter (first ++ second) table = tableAfter second (tableAfter first table) :=
  List.foldl_append

/-- To disable channels of a number empties them and nothing else. -/
theorem tableAfter_disableOrders (id : Int) (channels : List UInt8) :
    tableAfter (disableOrders id channels) table k =
      if k.id = id ∧ k.channel ∈ channels then none else table k := by
  induction channels generalizing table with
  | nil => simp [disableOrders]
  | cons channel rest ih =>
    have hstep : tableAfter (disableOrders id (channel :: rest)) table =
        tableAfter (disableOrders id rest) (Function.update table ⟨channel, id⟩ none) := rfl
    rw [hstep, ih]
    obtain ⟨channel', id'⟩ := k
    by_cases hrest : id' = id ∧ channel' ∈ rest
    · rw [if_pos hrest, if_pos ⟨hrest.1, List.mem_cons_of_mem _ hrest.2⟩]
    · rw [if_neg hrest]
      by_cases hk : channel' = channel ∧ id' = id
      · obtain ⟨rfl, rfl⟩ := hk
        rw [Function.update_self, if_pos ⟨rfl, List.mem_cons_self⟩]
      · have hne : (⟨channel', id'⟩ : AlwaysOnKey) ≠ ⟨channel, id⟩ := by
          simpa using hk
        rw [Function.update_of_ne hne, if_neg]
        intro h
        rcases List.mem_cons.1 h.2 with he | hm
        · exact hk ⟨he, h.1⟩
        · exact hrest ⟨h.1, hm⟩

/-- To enable the effects of a number puts them in place and changes nothing else. -/
theorem tableAfter_enable (id : Int) {effects : Table UInt8 Prebaked} (ho : effects.Ordered) :
    tableAfter (syncOrders id effects true) table k =
      if k.id = id ∧ effects.has k.channel = true then effects.get? k.channel else table k := by
  induction effects generalizing table with
  | nil => simp [syncOrders]
  | cons entry rest ih =>
    obtain ⟨channel, effect⟩ := entry
    have hstep : tableAfter (syncOrders id ((channel, effect) :: rest) true) table =
        tableAfter (syncOrders id rest true)
          (Function.update table ⟨channel, id⟩ (some effect)) := rfl
    rw [hstep, ih _ ho.of_cons]
    obtain ⟨channel', id'⟩ := k
    simp only [Table.has_cons, Table.get?_cons]
    by_cases hid : id' = id
    · subst hid
      by_cases hchannel : channel = channel'
      · -- the channel does not come again, so its effect is not written over
        subst hchannel
        simp [ho.not_has_head]
      · have hne : (⟨channel', id'⟩ : AlwaysOnKey) ≠ ⟨channel, id'⟩ := by
          simpa using Ne.symm hchannel
        simp [hchannel, Function.update_of_ne hne]
    · simp [hid]

/-- To bring a number in line puts its effects in place, or takes them away. -/
theorem tableAfter_syncOrders (id : Int) {effects : Table UInt8 Prebaked} (ho : effects.Ordered)
    (allowed : Bool) :
    tableAfter (syncOrders id effects allowed) table k =
      if k.id = id ∧ effects.has k.channel = true then
        if allowed then effects.get? k.channel else none
      else table k := by
  cases allowed with
  | true => exact tableAfter_enable table k id ho
  | false =>
    simp only [Table.has_eq_true_iff, Bool.false_eq_true, if_false]
    exact tableAfter_disableOrders table k id effects.keys

end tableAfter

/-! ## Calls in turn -/

section calls

variable {issue : Order → τ → Except Failure Nat × τ} {view : τ → AlwaysOnTable}

/-- Orders in turn are all taken exactly when the first of them are and then the others. -/
theorem issueAll_append_eq_ok_iff {first second : List Order} {t t' : τ} :
    issueAll issue (first ++ second) t = (.ok (), t') ↔
      ∃ u, issueAll issue first t = (.ok (), u) ∧ issueAll issue second u = (.ok (), t') := by
  induction first generalizing t with
  | nil => simp
  | cons o rest ih =>
    rw [List.cons_append]
    rcases hr : issue o t with ⟨e | reported, u⟩
    · simp [issueAll_cons_of_error issue hr]
    · rw [issueAll_cons_of_ok issue hr, issueAll_cons_of_ok issue hr]
      exact ih

variable (ho : Obeys issue view)

include ho

/-- Calls that are all taken have their effects one after another. -/
theorem view_issueAll {orders : List Order} (hon : ∀ o ∈ orders, o.isAlwaysOn = true) {t t' : τ}
    (h : issueAll issue orders t = (.ok (), t')) : view t' = tableAfter orders (view t) := by
  induction orders generalizing t with
  | nil =>
    cases h
    rfl
  | cons o rest ih =>
    rcases hr : issue o t with ⟨e | reported, u⟩
    · rw [issueAll_cons_of_error issue hr] at h
      cases h
    · rw [issueAll_cons_of_ok issue hr] at h
      rw [ih (fun o hm => hon o (List.mem_cons_of_mem _ hm)) h,
        ho.taken (hon o List.mem_cons_self) hr, tableAfter_cons]

/-- What none of the calls in turn can end still holds wherever they stop. -/
theorem holds_issueAll {P : AlwaysOnTable → Prop} {orders : List Order}
    (hon : ∀ o ∈ orders, o.isAlwaysOn = true)
    (hkeep : ∀ o ∈ orders, ∀ table, P table → P (o.onTable table)) {t t' : τ}
    {answer : Except Failure Unit} (h : issueAll issue orders t = (answer, t'))
    (ht : P (view t)) : P (view t') := by
  induction orders generalizing t with
  | nil =>
    rw [issueAll_nil, Prod.mk.injEq] at h
    exact h.2 ▸ ht
  | cons o rest ih =>
    obtain ⟨ho', hrest⟩ := List.forall_mem_cons.1 hon
    obtain ⟨hko, hkrest⟩ := List.forall_mem_cons.1 hkeep
    rcases hr : issue o t with ⟨e | reported, u⟩
    · rw [issueAll_cons_of_error issue hr, Prod.mk.injEq] at h
      rw [← h.2, ho.refused ho' hr]
      exact ht
    · rw [issueAll_cons_of_ok issue hr] at h
      refine ih hrest hkrest h ?_
      rw [ho.taken ho' hr]
      exact hko _ ht

/-- Wherever calls in turn stop, only those that enable a channel have put an effect in the
table. -/
theorem present_issueAll {orders : List Order} (hon : ∀ o ∈ orders, o.isAlwaysOn = true)
    {t t' : τ} {answer : Except Failure Unit} (h : issueAll issue orders t = (answer, t'))
    {k : AlwaysOnKey} (hk : view t' k ≠ none) :
    view t k ≠ none ∨ ∃ effect, .alwaysOnEnable k.channel k.id effect ∈ orders := by
  refine holds_issueAll ho (P := fun table => table k ≠ none → view t k ≠ none ∨ ∃ effect,
    .alwaysOnEnable k.channel k.id effect ∈ orders) hon ?_ h .inl hk
  intro o hm table htable hk
  rcases Order.present_onTable hk with hbefore | ⟨effect, rfl⟩
  · exact htable hbefore
  · exact .inr ⟨effect, hm⟩

end calls

end AlwaysOn

/-! ## The bench -/

/-- A motor that obeys an order changes its always-on effects as the order says. -/
theorem Motor.alwaysOn_obey (m : Motor) (now : Nat) {o : Order} (hon : o.isAlwaysOn = true) :
    (m.obey now o).alwaysOn.get? = o.onTable m.alwaysOn.get? := by
  funext k
  unfold Order.isAlwaysOn at hon
  split at hon
  · next channel id effect =>
    simp only [obey, Order.onTable, Table.get?_insert, Function.update_apply, eq_comm]
  · next channel id =>
    simp only [obey, Order.onTable, Table.get?_erase, Function.update_apply, eq_comm]
  · simp at hon

namespace AlwaysOnTrial

/-- What a trial answers to an order is what its actuator answers. -/
theorem perform_of_issue {o : Order} {t t' : Trial} {answer : Except Failure Nat}
    (h : issue o t = (answer, t')) :
    t.line.actuator.perform t.now o = (answer, t'.line.actuator) := by
  unfold issue Line.withBench at h
  simp only [Prod.mk.injEq] at h
  rw [← h.1, ← h.2]

/-- **The motor on the bench obeys calls about always-on effects**, whichever of them the script
makes fail. -/
theorem obeys_trial : AlwaysOn.Obeys issue (fun t => t.motor.alwaysOn.get?) where
  taken {o t t' reported} hon h := by
    have hmotor := Bench.motor_of_perform_ok (perform_of_issue h)
    simp only [Trial.motor, hmotor]
    exact Motor.alwaysOn_obey _ t.now hon
  refused {o t t' e} _ h := by
    simp only [Trial.motor, Bench.motor_of_perform_error (perform_of_issue h)]

end AlwaysOnTrial

end Haptics
