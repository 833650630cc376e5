import Haptics.Proofs.Actuator.Noted
import Haptics.Proofs.Scheduler.Drive
import Haptics.Proofs.Scheduler.Through

/-!
# Talks with a bench that is kept with notes

To a scheduler a bench with notes is the bench (`shows_bench`, `logs_noted`). Whatever is said to
it, the notes stay right (`Talk.tallies`); and as long as no start order is given, little becomes of
what waits to be heard (`Talk.quiet`).

The orders of a step bring no report but about the command of the step
(`Talk.lt_of_mem_reports`), and when a silent step has been launched, nothing is in flight
(`Talk.inFlight_off`).
-/

namespace Haptics

namespace Noted

variable {n n' : Noted} {now : Nat} {o : Order}

/-- **A bench with notes shows what the bench shows.** -/
theorem shows_bench : device.Shows bench Bench.device where
  info _ := rfl
  connect _ := rfl
  perform _ _ _ := rfl
  hear n := by
    change n.bench.hear = (n.bench.hear.map _).map _
    rw [Option.map_map]
    exact (congrFun Option.map_id _).symm

/-- To connect is done by the bench, and needs no note. -/
theorem connect_eq (n : Noted) :
    device.connect n = n.bench.connect.map id fun b => { n with bench := b } := rfl

/-- An order is carried out by the bench, and noted under the number of the latest command. -/
theorem perform_eq (now : Nat) (o : Order) (n : Noted) :
    device.perform now o n =
      (n.bench.perform now o).map id fun b => n.became b b.motor.started := rfl

/-- A line connects to its bench, unless there is a connection, or the bench lets nobody connect. -/
theorem reach_eq (l : Line Noted) :
    (l.reach device).2 = l ∨
      (l.reach device).2 = ⟨{ l.actuator with bench := l.actuator.bench.attached }, true⟩ := by
  unfold Line.reach
  split
  · exact .inl rfl
  · next hl =>
    rw [Bool.not_eq_true] at hl
    by_cases ha : l.actuator.bench.available = true
    · have hc : device.connect l.actuator =
          (.ok (), { l.actuator with bench := l.actuator.bench.attached }) := by
        rw [connect_eq, Bench.connect, if_pos ha]
        rfl
      rw [hc]
      exact .inr rfl
    · have hc : device.connect l.actuator =
          (.error ActuatorError.offline.toFailure, l.actuator) := by
        rw [connect_eq, Bench.connect, if_neg ha]
        rfl
      rw [hc]
      exact .inl (by rw [← hl])

/-- An order that is carried out is noted. -/
theorem perform_ok {reported : Nat} (h : device.perform now o n = (.ok reported, n')) :
    n.bench.perform now o = (.ok reported, n'.bench) ∧
      n' = n.became (n.bench.obeyed now o) (n.bench.obeyed now o).motor.started := by
  rw [perform_eq] at h
  rcases hb : n.bench.perform now o with ⟨answer, b⟩
  rw [hb] at h
  cases h
  obtain ⟨-, rfl⟩ := Bench.perform_ok hb
  exact ⟨rfl, rfl⟩

/-- So is one that fails. -/
theorem perform_error {e : Failure} (h : device.perform now o n = (.error e, n')) :
    n.bench.perform now o = (.error e, n'.bench) ∧
      n' = n.became (n.bench.called o) (n.bench.called o).motor.started := by
  rw [perform_eq] at h
  rcases hb : n.bench.perform now o with ⟨answer, b⟩
  rw [hb] at h
  cases h
  obtain rfl := Bench.perform_error hb
  exact ⟨rfl, rfl⟩

/-- An order that is carried out is one more start command, or none. -/
theorem started_obeyed (n : Noted) (now : Nat) (o : Order) :
    (n.bench.obeyed now o).motor.started = n.started + o.isStart.toNat := by
  change (n.bench.motor.obey now o).startCommands.length = n.bench.motor.startCommands.length + _
  rw [Motor.startCommands_obey, List.length_append]
  cases o.isStart <;> rfl

/-- What is reported while an order is carried out, which tells nothing to stop, is about its own
command. -/
theorem lt_of_mem_reports_obeyed (n : Noted) (now : Nat) {o : Order} (hs : o ≠ .stop) :
    ∀ r ∈ (n.became (n.bench.obeyed now o) (n.bench.obeyed now o).motor.started).reports,
      r ∈ n.reports ∨ n.started < r.2 := by
  intro r hr
  rcases List.mem_append.1 hr with hr | hr
  · exact .inl hr
  · obtain ⟨id, hid, rfl⟩ := List.mem_map.1 hr
    cases ho : o.isStart with
    | true =>
      refine .inr ?_
      rw [started_obeyed, ho]
      exact Nat.lt_succ_self _
    | false =>
      have hnone : n.bench.motor.news (n.bench.obeyed now o).motor = [] :=
        Motor.news_of_eq (Motor.events_obey n.bench.motor now ho hs)
      rw [hnone] at hid
      cases hid

end Noted

/-- The motor on a bench with notes keeps a log. -/
theorem logs_noted : Logs Noted.device (·.bench.motor.commands) where
  connect n := logs_bench.connect n.bench
  taken h := logs_bench.taken (Noted.perform_ok h).1
  refused h := logs_bench.refused (Noted.perform_error h).1

namespace Scheduler

variable {c : Context Noted} {l m : Line Noted} {orders : List Order}

/-- What holds of a talk with a bench that is kept with notes: what holds without a word and is kept
by each. -/
theorem Talk.holds_of_notes {motive : List Order → Line Noted → Prop}
    (hd : c.device = Noted.device) (h : Talk c l orders m) (silence : motive [] l)
    (attached : ∀ {os : List Order} {m : Line Noted}, motive os m →
      motive os ⟨{ m.actuator with bench := m.actuator.bench.attached }, true⟩)
    (reset : ∀ {os : List Order} {m : Line Noted}, motive os m → motive os m.reset)
    (obeyed : ∀ {os : List Order} {m : Line Noted} {o : Order}, motive os m →
      motive (o :: os) ⟨m.actuator.became (m.actuator.bench.obeyed c.now o)
        (m.actuator.bench.obeyed c.now o).motor.started, m.connected⟩)
    (failed : ∀ {os : List Order} {m : Line Noted} (o : Order), motive os m →
      motive os ⟨m.actuator.became (m.actuator.bench.called o)
        (m.actuator.bench.called o).motor.started, m.connected⟩) : motive orders m := by
  induction h with
  | silence => exact silence
  | @reach m orders _ ih =>
    rw [hd]
    rcases Noted.reach_eq m with hr | hr <;> rw [hr]
    · exact ih
    · exact attached ih
  | reset _ ih => exact reset ih
  | taken _ hp ih =>
    rw [hd] at hp
    rw [(Noted.perform_ok hp).2]
    exact obeyed ih
  | refused _ hp ih =>
    rw [hd] at hp
    rw [(Noted.perform_error hp).2]
    exact failed _ ih

/-- **A talk is noted.** -/
theorem Talk.tallies (hd : c.device = Noted.device) (h : Talk c l orders m)
    (ht : l.actuator.Tallies) : m.actuator.Tallies :=
  h.holds_of_notes (motive := fun _ m => m.actuator.Tallies) hd ht (fun ih => ih.attached)
    (fun ih => ih) (fun ih => ih.obeyed _ _) (fun o ih => ih.called o _)

/-- **A talk without start orders starts no command.** -/
theorem Talk.quiet (hd : c.device = Noted.device) (h : Talk c l orders m)
    (ho : ∀ o ∈ orders, o.isStart = false) : Noted.Quiet l.actuator m.actuator := by
  refine h.holds_of_notes (motive := fun os m => (∀ o ∈ os, o.isStart = false) →
    Noted.Quiet l.actuator m.actuator) hd (fun _ => .refl _)
    (fun ih ho => (ih ho).trans (Noted.quiet_attached _)) (fun ih => ih)
    (fun ih ho => ?_) (fun o ih ho => (ih ho).trans (Noted.quiet_called _ o _)) ho
  rw [List.forall_mem_cons] at ho
  exact (ih ho.2).trans (Noted.quiet_obeyed _ _ ho.1)

/-- **What is reported while nothing is told to stop** is about a command that is started
meanwhile. -/
theorem Talk.lt_of_mem_reports (hd : c.device = Noted.device) (h : Talk c l orders m)
    (ho : Order.stop ∉ orders) :
    ∀ r ∈ m.actuator.reports, r ∈ l.actuator.reports ∨ l.actuator.started < r.2 := by
  refine (h.holds_of_notes (motive := fun os m => Order.stop ∉ os →
    l.actuator.started ≤ m.actuator.started ∧
      ∀ r ∈ m.actuator.reports, r ∈ l.actuator.reports ∨ l.actuator.started < r.2)
    hd (fun _ => ⟨Nat.le_refl _, fun r hr => .inl hr⟩) (fun ih => ih) (fun ih => ih)
    (@fun os m o ih ho => ?_) (fun o ih ho => ?_) ho).2
  · rw [List.mem_cons, not_or] at ho
    obtain ⟨hle, hreports⟩ := ih ho.2
    constructor
    · refine Nat.le_trans hle ?_
      change m.actuator.started ≤ (m.actuator.bench.obeyed c.now o).motor.started
      rw [Noted.started_obeyed]
      exact Nat.le_add_right ..
    · intro r hr
      rcases Noted.lt_of_mem_reports_obeyed _ _ (Ne.symm ho.1) r hr with hr | hlt
      · exact hreports r hr
      · exact .inr (Nat.lt_of_le_of_lt hle hlt)
  · obtain ⟨hle, hreports⟩ := ih ho
    refine ⟨hle, fun r hr => ?_⟩
    rw [Noted.reports_called] at hr
    exact hreports r hr

/-- So if nothing has waited to be heard for a vibration, whatever waits afterwards is about a
command that has been started meanwhile. -/
theorem Talk.bounds_of_clear (hd : c.device = Noted.device) (h : Talk c l orders m)
    (ho : Order.stop ∉ orders) (hm : m.actuator.Tallies) {id : Nat} (hclear : l.actuator.Clear id) :
    ∀ r ∈ m.actuator.reports, r.1 = id →
      l.actuator.started < r.2 ∧ r.2 ≤ m.actuator.started := by
  intro r hr hid
  refine ⟨?_, (hm.owners r hr).1⟩
  rcases h.lt_of_mem_reports hd ho r hr with hr | hlt
  · exact absurd hid (hclear r hr)
  · exact hlt

/-- Nothing is in flight after an order to switch off. -/
theorem Talk.inFlight_off (hd : c.device = Noted.device) (h : Talk c l (.off :: orders) m) :
    m.actuator.bench.motor.inFlight = none := by
  refine h.holds_of_notes (motive := fun os m => os.head? = some .off →
    m.actuator.bench.motor.inFlight = none) hd (fun ho => by cases ho) (fun ih => ih)
    (fun ih => ih) (fun ih ho => ?_) (fun o ih => ih) rfl
  cases ho
  rfl

end Scheduler

end Haptics
