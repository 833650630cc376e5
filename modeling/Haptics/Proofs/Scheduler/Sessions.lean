import Haptics.Proofs.Scheduler.Course
import Haptics.Proofs.Scheduler.Moves
import Mathlib.Data.List.DropRight
import Mathlib.Data.List.Forall2

/-!
# Every session is accounted for

A source that asks for the motor and is not turned away has a session put in place for it
(`Scheduler.granted?`). The session waits as `pending` and runs while it has the motor. It ends when
its source gives the motor back, its client cancels it, another one takes its place, it has waited
too long, the actuator cannot be handed over, or everything is stopped. Whichever way, it leaves its
place, is kept in the history, and stays as it is from then on.

So the sessions that have departed and the one in place, if there is one, are the sessions that were
granted, one by one and in that order, each as it has become (`ExternalSession.Becomes`).

* `Move.continues`, `continues_endExternal`, `continues_install`: what a move, the end of a session
  and a new session do about it (`Continues`).
* `continues_undergoAll`: the same of a course.
* `fits_startExternal`: the answer to a source says how its session is.
* `sessions_accounted_for`: all of it, in every state of every course.
-/

namespace Haptics

/-! ## What becomes of a session -/

namespace ExternalSession

/-- What can become of a session. Who asked for it, and the scale granted, stay. -/
inductive Becomes (e : ExternalSession) : ExternalSession → Prop where
  | same : Becomes e e
  | activated (h : e.status = .pending) : Becomes e { e with active := true, status := .running }
  | ended (h : e.status.isTerminal = false) (status : Status) (hs : status.isTerminal = true)
      (now : Nat) : Becomes e { e with status, endedMs := some now, active := false }

/-- A session that is in place is pending, or has the motor and runs. -/
structure InPlace (e : ExternalSession) : Prop where
  status : e.status = if e.active then .running else .pending
  endedMs : e.endedMs = none

/-- A session that has ended does not have the motor any more. -/
structure Ended (e : ExternalSession) : Prop where
  terminal : e.status.isTerminal = true
  inactive : e.active = false
  endedMs : e.endedMs.isSome = true

variable {e f g : ExternalSession}

/-- What can become of a session in two goes can become of it in one. -/
theorem Becomes.trans (h : e.Becomes f) (h' : f.Becomes g) : e.Becomes g := by
  cases h with
  | same => exact h'
  | activated hp =>
    cases h' with
    | same => exact .activated hp
    | activated hp' => cases hp'
    | ended _ status hs now => exact .ended (by rw [hp]; rfl) status hs now
  | ended hl status hs now =>
    cases h' with
    | same => exact .ended hl status hs now
    | activated hp' =>
      obtain rfl : status = .pending := hp'
      cases hs
    | ended hl' => cases hs.symm.trans hl'

/-- Sessions to which nothing happens are the same. -/
theorem forall₂_becomes_refl (l : List ExternalSession) : List.Forall₂ Becomes l l :=
  List.forall₂_same.2 fun _ _ => .same

/-- So it is with sessions one by one. -/
theorem forall₂_becomes_trans {l m n : List ExternalSession} (h : List.Forall₂ Becomes l m)
    (h' : List.Forall₂ Becomes m n) : List.Forall₂ Becomes l n := by
  induction h generalizing n with
  | nil => exact h'
  | cons hb _ ih =>
    cases h' with
    | cons hb' hrest => exact .cons (hb.trans hb') (ih hrest)

/-- A session that has just been granted is in place. -/
theorem inPlace_granted (request : ExternalRequest) (scale : ExternalScale) :
    InPlace { request, scale } := ⟨rfl, rfl⟩

/-- A session in place has not ended. -/
theorem InPlace.isTerminal (h : e.InPlace) : e.status.isTerminal = false := by
  rw [h.status]
  split <;> rfl

/-- A session runs exactly while it has the motor. -/
theorem InPlace.active_iff (h : e.InPlace) : e.active = true ↔ e.status = .running := by
  rw [h.status]
  cases e.active <;> simp

/-- A session that has ended neither has the motor nor runs. -/
theorem Ended.active_iff (h : e.Ended) : e.active = true ↔ e.status = .running := by
  constructor
  · intro ha
    cases h.inactive.symm.trans ha
  · intro hr
    have ht := h.terminal
    rw [hr] at ht
    cases ht

/-- A session that waits can take the motor. -/
theorem InPlace.becomes_activate (h : e.InPlace) (ha : e.active = false) :
    e.Becomes e.activate := .activated (by rw [h.status, ha]; rfl)

/-- Then it is in place still. -/
theorem InPlace.activate (h : e.InPlace) : e.activate.InPlace := ⟨rfl, h.endedMs⟩

/-- A session in place takes the status with which it ends. -/
theorem InPlace.finish_eq (h : e.InPlace) (status : Status) (now : Nat) :
    e.finish status now = { e with status, endedMs := some now, active := false } := by
  rw [finish, if_neg (by simp [h.isTerminal])]

/-- A session in place can end. -/
theorem InPlace.becomes_finish (h : e.InPlace) {status : Status} (hs : status.isTerminal = true)
    (now : Nat) : e.Becomes (e.finish status now) := by
  rw [h.finish_eq]
  exact .ended h.isTerminal status hs now

/-- Then it has ended. -/
theorem InPlace.ended_finish (h : e.InPlace) {status : Status} (hs : status.isTerminal = true)
    (now : Nat) : (e.finish status now).Ended := by
  rw [h.finish_eq]
  exact ⟨hs, rfl, rfl⟩

end ExternalSession

/-- What an answer to the source of a session says about a state. -/
def ExternalAnswer.Fits {σ : Type} (id : Nat) (s : Scheduler σ) : ExternalAnswer → Prop
  | .active scale => ∃ e ∈ s.external, e.id = id ∧ e.scale = scale ∧ e.active = true
  | .waiting scale => ∃ e ∈ s.external, e.id = id ∧ e.scale = scale ∧ e.active = false
  | .rejected => ∀ e ∈ s.external, e.id ≠ id

/-- The latest ones of a list under its limit, and one behind them, are the latest ones again. -/
theorem History.push_rtake {α : Type} (limit : Nat) (l : List α) (x : α) :
    push limit (l.rtake limit) x = (l ++ [x]).rtake limit := by
  have hfront : l.rtake limit ++ [x] = (l ++ [x]).drop (l.length - limit) := by
    rw [List.drop_append_of_le_length (Nat.sub_le ..), List.rtake]
  rw [push, hfront, List.rtake, List.drop_drop, List.rtake, List.length_drop, List.length_append,
    List.length_singleton]
  congr 1
  omega

namespace Scheduler

open Occurrence ExternalSession

variable {σ : Type} {c : Context σ} {s t u : Scheduler σ} {e : ExternalSession}
  {new more : List ExternalSession}

/-! ## Where the sessions are -/

/-- The sessions that have departed, and the one in place. -/
def sessions (s : Scheduler σ) : List ExternalSession := s.departed ++ s.external.toList

/-- What is known of the sessions: the history keeps the latest of those that have departed. -/
structure Accounted (s : Scheduler σ) : Prop where
  inPlace : ∀ e ∈ s.external, e.InPlace
  ended : ∀ e ∈ s.departed, e.Ended
  kept : s.history.externals = (s.departed.map (·.info)).rtake s.history.externalLimit

/-- The sessions of a later state are those of an earlier one, as they have become, and new ones;
and those that have departed stay as they are. -/
structure Continues (new : List ExternalSession) (s t : Scheduler σ) : Prop where
  accounted : t.Accounted
  becomes : List.Forall₂ Becomes (s.sessions ++ new) t.sessions
  departed : s.departed <+: t.departed
  limit : t.history.externalLimit = s.history.externalLimit

/-- Nothing has been done about sessions. -/
theorem Accounted.continues_of_eq (h : s.Accounted) (he : t.external = s.external)
    (hd : t.departed = s.departed) (hh : t.history.externals = s.history.externals)
    (hl : t.history.externalLimit = s.history.externalLimit) : Continues [] s t := by
  have hs : t.sessions = s.sessions := by rw [sessions, hd, he, sessions]
  refine ⟨⟨?_, ?_, ?_⟩, ?_, ?_, hl⟩
  · rw [he]; exact h.inPlace
  · rw [hd]; exact h.ended
  · rw [hh, hd, hl]; exact h.kept
  · rw [hs, List.append_nil]; exact forall₂_becomes_refl _
  · exact ⟨[], by rw [List.append_nil, hd]⟩

/-- Where nothing happens the sessions are the same. -/
theorem Accounted.continues (h : s.Accounted) : Continues [] s s :=
  h.continues_of_eq rfl rfl rfl rfl

/-- New sessions come behind those before. -/
theorem Continues.trans (h : Continues new s t) (h' : Continues more t u) :
    Continues (new ++ more) s u := by
  refine ⟨h'.accounted, ?_, h.departed.trans h'.departed, h'.limit.trans h.limit⟩
  rw [← List.append_assoc]
  exact forall₂_becomes_trans (List.rel_append h.becomes (forall₂_becomes_refl more)) h'.becomes

/-- No session is put in place afterwards. -/
theorem Continues.trans_nil (h : Continues new s t) (h' : Continues [] t u) :
    Continues new s u := by
  simpa using h.trans h'

/-! ## What is done about sessions -/

/-- A session takes the motor. -/
theorem continues_seize (h : s.Accounted) (he : s.external = some e) (ha : e.active = false) :
    Continues [] s (s.seize e) := by
  have hp := h.inPlace e he
  refine ⟨⟨?_, h.ended, h.kept⟩, ?_, List.prefix_rfl, rfl⟩
  · rintro _ ⟨⟩
    exact hp.activate
  · rw [List.append_nil, sessions, he]
    exact List.rel_append (forall₂_becomes_refl _) (.cons (hp.becomes_activate ha) .nil)

/-- A session that is dismissed is the latest that has ended. -/
theorem departed_dismiss (c : Context σ) (status : Status) (e : ExternalSession)
    (s : Scheduler σ) :
    (s.dismiss c status e).departed = s.departed ++ [e.finish status c.now] := by
  change (e.finish status c.now :: s.journal.filterMap Deed.dismissed?).reverse = _
  exact List.reverse_cons

/-- **A session that ends departs**, and is kept in the history. -/
theorem continues_dismiss (h : s.Accounted) (he : s.external = some e) {status : Status}
    (hs : status.isTerminal = true) (c : Context σ) : Continues [] s (s.dismiss c status e) := by
  have hp := h.inPlace e he
  have hd := departed_dismiss c status e s
  refine ⟨⟨?_, ?_, ?_⟩, ?_, ?_, rfl⟩
  · rintro _ ⟨⟩
  · rw [hd]
    intro f hf
    rcases List.mem_append.1 hf with hf | hf
    · exact h.ended f hf
    · rw [List.mem_singleton.1 hf]
      exact hp.ended_finish hs c.now
  · rw [hd, List.map_append]
    change History.push _ s.history.externals _ = _
    rw [h.kept, History.push_rtake]
    rfl
  · rw [List.append_nil, sessions, he, sessions, hd]
    change List.Forall₂ _ _ (s.departed ++ [_] ++ [])
    rw [List.append_nil]
    exact List.rel_append (forall₂_becomes_refl _) (.cons (hp.becomes_finish hs c.now) .nil)
  · rw [hd]
    exact List.prefix_append ..

/-- A session is put in a place that is free. -/
theorem continues_put (h : s.Accounted) (he : s.external = none) (hp : e.InPlace) :
    Continues [e] s { s with external := some e } := by
  refine ⟨⟨?_, h.ended, h.kept⟩, ?_, List.prefix_rfl, rfl⟩
  · rintro _ ⟨⟩
    exact hp
  · rw [sessions, he]
    change List.Forall₂ _ (s.departed ++ [] ++ [e]) (s.departed ++ [e])
    rw [List.append_nil]
    exact forall₂_becomes_refl _

/-- **A new session is put in place**, and the one that was there departs. -/
theorem continues_install (h : s.Accounted) (hp : e.InPlace) (c : Context σ) :
    Continues [e] s (s.install c e) := by
  unfold install
  split
  · next he => exact continues_put h he hp
  · next previous he =>
    have hd : Continues [] s (s.dismiss c .cancelledSuperseded previous) :=
      continues_dismiss h he rfl c
    exact hd.trans (continues_put hd.accounted rfl hp)

/-- A talk is not about sessions. -/
theorem continues_told (h : s.Accounted) (line : Line σ) (orders : List Order) :
    Continues [] s (s.told line orders) :=
  h.continues_of_eq rfl (departed_told ..) rfl rfl

/-- **What a move does about sessions.** -/
theorem Move.continues (hm : Move c s t) (h : s.Accounted) : Continues [] s t := by
  cases hm with
  | talked ht ho => exact continues_told h _ _
  | tended hs =>
    exact h.continues_of_eq (congrArg Standing.external hs) (congrArg Standing.departed hs)
      (congrArg Standing.externals hs) (congrArg Standing.externalLimit hs)
  | @seized line e ht he ha =>
    have htold := continues_told h line [.externalControl true]
    exact htold.trans_nil (continues_seize htold.accounted he ha)
  | @failed line e ht he ha =>
    have htold := continues_told h line []
    exact htold.trans_nil (continues_dismiss htold.accounted he rfl c)

/-- **Whatever is done beside sessions** continues them, and puts none in place. -/
theorem Moves.continues (hm : Moves c s t) (h : s.Accounted) : Continues [] s t := by
  induction hm with
  | refl => exact h.continues
  | tail _ hm ih => exact ih.trans_nil (hm.continues ih.accounted)

/-- **The end of a session**, if there is one. -/
theorem continues_endExternal (h : s.Accounted) {status : Status} (hs : status.isTerminal = true)
    (c : Context σ) : Continues [] s (s.endExternal c status) := by
  unfold endExternal
  split
  · exact h.continues
  · next e he =>
    split
    · have hd := dispatch_issueIfConnected c (.externalControl false) s
      generalize s.issueIfConnected c (.externalControl false) = answer at hd
      cases hd with
      | @taken line ht reported =>
        have htold := continues_told h line [.externalControl false]
        exact htold.trans_nil (continues_dismiss htold.accounted he hs c)
      | @refused line ht e' =>
        have htold := continues_told h line []
        exact htold.trans_nil (continues_dismiss htold.accounted he hs c)
    · exact continues_dismiss h he hs c

/-! ## The request of a source -/

/-- The session that a source is granted: none if its session is there, if the actuator cannot be
reached or driven from outside, or if the policy mutes the source. -/
def granted? (c : Context σ) (request : ExternalRequest) (s : Scheduler σ) :
    Option ExternalSession :=
  if s.external.any (·.id = request.id) then none
  else if (s.info? c).1.any (·.can .externalControl) ∧ c.policy.externalScale request ≠ .mute then
    some { request, scale := c.policy.externalScale request }
  else none

/-- What comes of the request of a source: it gets the answer that its session has, is turned away,
or is granted a session. -/
inductive Opened (c : Context σ) (request : ExternalRequest) (s : Scheduler σ) :
    Option ExternalSession → ExternalAnswer × Scheduler σ → Prop where
  | there {e : ExternalSession} (he : s.external = some e) (hid : e.id = request.id) :
      Opened c request s none (answerFor e, s)
  | turnedAway (hid : ∀ e ∈ s.external, e.id ≠ request.id) :
      Opened c request s none (.rejected, (s.info? c).2)
  | granted (scale : ExternalScale) :
      Opened c request s (some { request, scale }) ((s.info? c).2.grant c request scale)

/-- A source that asks for the motor comes to one of these. -/
theorem opened_startExternal (c : Context σ) (request : ExternalRequest) (s : Scheduler σ) :
    Opened c request s (s.granted? c request) (s.startExternal c request) := by
  unfold startExternal
  split
  · next e he =>
    obtain ⟨he, hid⟩ := Option.filter_eq_some_iff.1 he
    have hg : s.granted? c request = none := by simp [granted?, he, hid]
    rw [hg]
    exact .there he (by simpa using hid)
  · next hnone =>
    have hid : ∀ e ∈ s.external, e.id ≠ request.id := by
      simpa [Option.filter_eq_none_iff] using hnone
    have hany : s.external.any (·.id = request.id) = false := by
      rw [← Bool.not_eq_true, Option.any_eq_true]
      rintro ⟨e, he, hsame⟩
      exact hid e he (by simpa using hsame)
    -- whatever the actuator says of itself, the session is turned away or granted
    have haway : Opened c request s none (.rejected, (s.info? c).2) := .turnedAway hid
    have hgranted (scale : ExternalScale) : Opened c request s (some { request, scale })
        ((s.info? c).2.grant c request scale) := .granted scale
    unfold openExternal granted?
    rw [hany]
    rcases hi : s.info? c with ⟨_ | info, t⟩ <;> rw [hi] at haway hgranted
    · simpa using haway
    · by_cases hcan : info.can .externalControl = true
      · by_cases hm : c.policy.externalScale request = .mute
        · simpa [hcan, hm] using haway
        · simpa [hcan, hm] using hgranted (c.policy.externalScale request)
      · simpa [hcan] using haway

/-- A session that has been granted is put in place, and may have the motor. -/
theorem continues_grant (h : s.Accounted) (c : Context σ) (request : ExternalRequest)
    (scale : ExternalScale) : Continues [{ request, scale }] s (s.grant c request scale).2 := by
  have hi := continues_install h (inPlace_granted request scale) c
  unfold grant
  simp only
  split
  · exact hi.trans_nil (continues_seize hi.accounted (external_install ..) rfl)
  · exact hi.trans_nil ((moves_makeWay c _).continues hi.accounted)

/-- The session that is granted is the only new one. -/
theorem Opened.continues {g : Option ExternalSession} {answer : ExternalAnswer × Scheduler σ}
    {request : ExternalRequest} (ho : Opened c request s g answer) (h : s.Accounted) :
    Continues g.toList s answer.2 := by
  have hi : Continues [] s (s.info? c).2 := (errands_info? c false s).asides.moves.continues h
  cases ho with
  | there he hid => exact h.continues
  | turnedAway hid => exact hi
  | granted scale => exact hi.trans (continues_grant hi.accounted c request scale)

/-! ## What an answer says -/

/-- Whoever has a session in place after moves had it before, with the same scale. -/
theorem Move.exists_external (h : Move c s t) (he : t.external = some e) :
    ∃ f, s.external = some f ∧ f.request = e.request ∧ f.scale = e.scale := by
  cases h with
  | talked ht ho => exact ⟨e, he, rfl, rfl⟩
  | tended hs => exact ⟨e, (congrArg Standing.external hs).symm.trans he, rfl, rfl⟩
  | @seized line f ht hf ha =>
    cases he
    exact ⟨f, hf, rfl, rfl⟩
  | failed ht hf ha => cases he

/-- The session that is there after moves has been there before. -/
theorem Moves.exists_external (h : Moves c s t) (he : t.external = some e) :
    ∃ f, s.external = some f ∧ f.request = e.request ∧ f.scale = e.scale := by
  induction h generalizing e with
  | refl => exact ⟨e, he, rfl, rfl⟩
  | tail _ hm ih =>
    obtain ⟨f, hf, hrequest, hscale⟩ := hm.exists_external he
    obtain ⟨g, hg, hrequest', hscale'⟩ := ih hf
    exact ⟨g, hg, hrequest'.trans hrequest, hscale'.trans hscale⟩

/-- The answer to a source that has been granted a session. -/
theorem fits_grant (c : Context σ) (request : ExternalRequest) (scale : ExternalScale)
    (s : Scheduler σ) :
    (s.grant c request scale).1.Fits request.id (s.grant c request scale).2 := by
  unfold grant
  simp only
  split
  · exact ⟨_, rfl, rfl, rfl, rfl⟩
  · have hm := moves_makeWay c (s.install c { request, scale })
    generalize (s.install c { request, scale }).makeWay c = t at hm
    unfold answerAfter
    split
    · next e he =>
      -- the session in place is the one that was put there
      obtain ⟨f, hf, hrequest, hscale⟩ := hm.exists_external he
      cases (external_install ..).symm.trans hf
      have hid : e.id = request.id := congrArg ExternalRequest.id hrequest.symm
      split
      · next ha => exact ⟨e, he, hid, hscale.symm, ha⟩
      · next ha => exact ⟨e, he, hid, hscale.symm, by simpa using ha⟩
    · next hnone =>
      intro e he
      cases hnone.symm.trans he

/-- **The answer to a source says how its session is.** -/
theorem fits_startExternal (c : Context σ) (request : ExternalRequest) (s : Scheduler σ) :
    (s.startExternal c request).1.Fits request.id (s.startExternal c request).2 := by
  have ho := opened_startExternal c request s
  generalize s.granted? c request = g at ho
  generalize s.startExternal c request = answer at ho
  cases ho with
  | @there e he hid =>
    unfold answerFor
    split
    · next ha => exact ⟨e, he, hid, rfl, ha⟩
    · next ha => exact ⟨e, he, hid, rfl, by simpa using ha⟩
  | turnedAway hid =>
    intro e he
    obtain ⟨f, hf, hrequest, -⟩ := (errands_info? c false s).asides.moves.exists_external he
    have hsame : f.id = e.id := congrArg ExternalRequest.id hrequest
    rw [← hsame]
    exact hid f hf
  | granted scale => exact fits_grant c request scale _

/-- A source that has waited long enough has the motor, or no session any more. -/
theorem ne_of_externalTimedOut {id : Nat} (h : s.externalTimedOut c id = (false, t)) :
    ∀ e ∈ t.external, e.id ≠ id := by
  unfold externalTimedOut at h
  split at h
  · next hnone =>
    cases h
    intro e he hid
    rw [Option.filter_eq_none_iff] at hnone
    exact hnone e he (by simpa using hid)
  · split at h
    · cases h
    · cases h
      rw [(endExternal_spec c (fun _ => True) s rfl).2.2.2]
      rintro _ ⟨⟩

/-! ## Courses -/

/-- The session that an occurrence puts in place. -/
def newSession? (c : Context σ) (o : Occurrence σ) (s : Scheduler σ) : Option ExternalSession :=
  match o with
  | .handled ⟨policy, now, .startExternal request⟩ => s.granted? { c with policy, now } request
  | _ => none

/-- The sessions that occurrences put in place, in turn. -/
def newSessions (c : Context σ) : List (Occurrence σ) → Scheduler σ → List ExternalSession
  | [], _ => []
  | o :: rest, s => (s.newSession? c o).toList ++ newSessions c rest (s.undergo c o)

/-- A client that cancels puts no session in place. -/
theorem continues_cancel (h : s.Accounted) (c : Context σ) (filter : UsageFilter) (token : Nat) :
    Continues [] s (s.cancel c filter token).2 := by
  have hconduct : Conduct c false s (s.cancelWhere c .cancelledByUser fun v =>
      v.token = token && filter.accepts v.usage).2 := conduct_cancelWhere c false rfl _ s
  have hw := hconduct.moves.continues h
  unfold cancel
  simp only
  split
  · exact hw.trans_nil (continues_endExternal hw.accounted rfl c)
  · exact hw

/-- Nor does a source that has waited long enough. -/
theorem continues_externalTimedOut (h : s.Accounted) (c : Context σ) (id : Nat) :
    Continues [] s (s.externalTimedOut c id).2 := by
  unfold externalTimedOut
  split
  · exact h.continues
  · split
    · exact h.continues
    · exact continues_endExternal h rfl c

/-- Nor does one that gives the motor back. -/
theorem continues_stopExternal (h : s.Accounted) (c : Context σ) (id : Nat) :
    Continues [] s (s.stopExternal c id).2 := by
  unfold stopExternal
  split
  · exact continues_endExternal h rfl c
  · exact h.continues

/-- Nor does the end of everything. -/
theorem continues_stopAll (h : s.Accounted) (c : Context σ) : Continues [] s (s.stopAll c) := by
  have hsilent := (moves_dropNext c .cancelledByUser s).trans (moves_silence c _)
  have hfinished : Moves c s
      (((s.dropNext c .cancelledByUser).silence c).finishCurrent c .cancelledByUser) :=
    hsilent.trans (moves_tended rfl)
  have hc := (hfinished.trans (moves_dropCurrent c _)).continues h
  exact hc.trans_nil (continues_endExternal hc.accounted rfl c)

/-- **What an occurrence does about sessions.** -/
theorem continues_undergo (h : s.Accounted) (c : Context σ) (o : Occurrence σ) :
    Continues (s.newSession? c o).toList s (s.undergo c o) := by
  cases o with
  | moved actuator => exact h.continues_of_eq rfl rfl rfl rfl
  | stopped now => exact continues_stopAll h { c with now }
  | handled happening =>
    obtain ⟨policy, now, input⟩ := happening
    rw [undergo]
    cases input with
    | cancel filter token => exact continues_cancel h _ filter token
    | startExternal request => exact (opened_startExternal _ request s).continues h
    | externalTimedOut id => exact continues_externalTimedOut h _ id
    | stopExternal id => exact continues_stopExternal h _ id
    | _ => exact Moves.continues (moves_step rfl _ s) h

/-- **What a course does about sessions.** -/
theorem continues_undergoAll (h : s.Accounted) (c : Context σ) (os : List (Occurrence σ)) :
    Continues (s.newSessions c os) s (s.undergoAll c os) := by
  induction os generalizing s with
  | nil => exact h.continues
  | cons o rest ih =>
    have ho := continues_undergo h c o
    exact ho.trans (ih ho.accounted)

/-- At the start there are no sessions to account for. -/
theorem accounted_create (config : Config) (actuator : σ) :
    (create config actuator).Accounted where
  inPlace := by rintro _ ⟨⟩
  ended := by rintro _ ⟨⟩
  kept := by simp [create, departed]

/-- **The sessions of a course are those that it has put in place**, one by one. -/
theorem continues_after (c : Context σ) (actuator : σ) (os : List (Occurrence σ)) :
    Continues ((create c.config actuator).newSessions c os) (create c.config actuator)
      (after c actuator os) :=
  continues_undergoAll (accounted_create c.config actuator) c os

/-- A session that is granted is pending. -/
theorem pending_of_granted? {request : ExternalRequest} (h : s.granted? c request = some e) :
    e.status = .pending ∧ e.active = false := by
  unfold granted? at h
  split at h
  · cases h
  · split at h
    · cases h
      exact ⟨rfl, rfl⟩
    · cases h

/-- A new session waits. -/
theorem pending_of_mem_newSessions {os : List (Occurrence σ)} (he : e ∈ s.newSessions c os) :
    e.status = .pending ∧ e.active = false := by
  induction os generalizing s with
  | nil => cases he
  | cons o rest ih =>
    rcases List.mem_append.1 he with he | he
    · rw [Option.mem_toList] at he
      unfold newSession? at he
      split at he
      · exact pending_of_granted? he
      · cases he
    · exact ih he

/-- **Every session is accounted for**, in every state `s` of every course, and in every later state
`t`.

* The sessions that have departed and the one in place are those that were granted, one by one and
  in that order, each as it has become. The history keeps the latest of those that have departed, up
  to its limit.
* A session is granted as `pending`, runs exactly while it has the motor, and has a final status
  when it has departed.
* Those that have departed stay as they are, and the one in place becomes what it is later on.
* When everything has been stopped, all have departed.
* A source whose session is in place gets the answer that its session has, and nothing else is done.
  An answer says how the session of the source is; and when a source is told that it has waited in
  vain, its session is not in place. -/
theorem sessions_accounted_for (c : Context σ) (actuator : σ) (os later : List (Occurrence σ)) :
    let granted := (create c.config actuator).newSessions c os
    let s := after c actuator os
    let t := after c actuator (os ++ later)
    (List.Forall₂ Becomes granted (s.departed ++ s.external.toList) ∧
      s.history.externals =
        (s.departed.map (·.info)).rtake c.config.externalHistoryLimit) ∧
    ((∀ e ∈ granted, e.status = .pending ∧ e.active = false) ∧
      (∀ e ∈ s.departed ++ s.external.toList, e.active = true ↔ e.status = .running) ∧
      (∀ e ∈ s.external, e.active = false → e.status = .pending) ∧
      ∀ e ∈ s.departed, e.status.isTerminal = true) ∧
    (s.departed <+: t.departed ∧
      List.Forall₂ Becomes (s.departed ++ s.external.toList ++ s.newSessions c later)
        (t.departed ++ t.external.toList)) ∧
    (∀ now, let u := s.undergo c (.stopped now)
      u.external = none ∧ List.Forall₂ Becomes granted u.departed) ∧
    ∀ policy now, let d := { c with policy, now }
      (∀ request,
        (∀ e ∈ s.external, e.id = request.id → s.startExternal d request = (answerFor e, s)) ∧
          (s.startExternal d request).1.Fits request.id (s.startExternal d request).2) ∧
        ∀ id u, s.externalTimedOut d id = (false, u) → ∀ e ∈ u.external, e.id ≠ id := by
  intro granted s t
  have hs : Continues granted (create c.config actuator) s := continues_after c actuator os
  have ht : Continues (s.newSessions c later) s t := by
    rw [show t = s.undergoAll c later from after_append c actuator os later]
    exact continues_undergoAll hs.accounted c later
  refine ⟨⟨hs.becomes, ?_⟩, ⟨fun e he => pending_of_mem_newSessions he, ?_, ?_, ?_⟩,
    ⟨ht.departed, ht.becomes⟩, fun now => ?_, fun policy now => ⟨fun request => ⟨?_, ?_⟩, ?_⟩⟩
  · rw [hs.accounted.kept, hs.limit]
    rfl
  · intro e he
    rcases List.mem_append.1 he with he | he
    · exact (hs.accounted.ended e he).active_iff
    · exact (hs.accounted.inPlace e (Option.mem_toList.1 he)).active_iff
  · intro e he ha
    have hp := (hs.accounted.inPlace e he).status
    rwa [ha] at hp
  · exact fun e he => (hs.accounted.ended e he).terminal
  -- at the end no session is in place, so that all of them have departed
  · have hu := continues_undergo hs.accounted c (.stopped now)
    have hnone : (s.undergo c (.stopped now)).external = none :=
      (stopAll_spec { c with now } s).2.2.2
    have hgone : (s.undergo c (.stopped now)).sessions = (s.undergo c (.stopped now)).departed := by
      rw [sessions, hnone]
      exact List.append_nil _
    refine ⟨hnone, ?_⟩
    rw [← hgone]
    exact (hs.trans_nil hu).becomes
  · intro e he hid
    have he' : s.external = some e := he
    unfold startExternal
    rw [he', Option.filter_some_pos (by simpa using hid)]
  · exact fits_startExternal _ request s
  · exact fun id u => ne_of_externalTimedOut

/-- A source of sound. -/
def source (id : Nat) : ExternalRequest := { id, uid := 2, package := "sound", token := 3 }

/-- A stream plays, and a source asks for the motor. -/
def sourceWaits : List (Occurrence Bench) :=
  [.handled humAsked, .handled ⟨.permissive, 5, .startExternal (source 7)⟩]

/-- Another source takes the place of the one that waits. It has the motor when the stream has come
to its end, until a third one takes it and gives it back. -/
def sources : List (Occurrence Bench) :=
  [.handled ⟨.permissive, 6, .startExternal (source 8)⟩,
    .handled ⟨.permissive, 9, .event (.complete 1)⟩,
    .handled ⟨.permissive, 12, .startExternal (source 9)⟩,
    .handled ⟨.permissive, 20, .stopExternal 9⟩]

/-- The three sessions are accounted for. The first of them is pending while it waits, which is what
its source is told when it asks again; and when the source has waited in vain, the session is
gone. -/
theorem sessions_accounted_for_sources :
    let granted := (create onBench.config bench).newSessions onBench (sourceWaits ++ sources)
    let s := after onBench bench sourceWaits
    let t := after onBench bench (sourceWaits ++ sources)
    granted.map (·.id) = [7, 8, 9] ∧
    t.departed.map (fun e => (e.id, e.status, e.endedMs)) =
      [(7, .cancelledSuperseded, some 6), (8, .cancelledSuperseded, some 12),
        (9, .finished, some 20)] ∧
    List.Forall₂ Becomes granted (t.departed ++ t.external.toList) ∧
    (∃ e ∈ s.external, e.id = 7 ∧ e.status = .pending ∧
      s.startExternal { onBench with policy := .permissive, now := 5 } (source 7) =
        (answerFor e, s)) ∧
    ∀ e ∈ (s.externalTimedOut { onBench with policy := .permissive, now := 5 } 7).2.external,
      e.id ≠ 7 := by
  obtain ⟨-, ⟨-, -, hpending, -⟩, -, -, hanswers⟩ :=
    sessions_accounted_for onBench bench sourceWaits sources
  obtain ⟨hstarts, htimed⟩ := hanswers .permissive 5
  obtain ⟨⟨hall, -⟩, -⟩ := sessions_accounted_for onBench bench (sourceWaits ++ sources) []
  refine ⟨by decide, by decide, hall, ?_, ?_⟩
  · have hwaits : (after onBench bench sourceWaits).external.any
        (fun e => e.id == 7 && !e.active) = true := by decide
    obtain ⟨e, he, hwaits⟩ := (Option.any_eq_true _ _).1 hwaits
    rw [Bool.and_eq_true, beq_iff_eq, Bool.not_eq_true'] at hwaits
    exact ⟨e, he, hwaits.1, hpending e he hwaits.2, (hstarts (source 7)).1 e he hwaits.1⟩
  · have hvain : ((after onBench bench sourceWaits).externalTimedOut
        { onBench with policy := .permissive, now := 5 } 7).1 = false := by decide
    exact htimed 7 _ (Prod.ext hvain rfl)

end Scheduler

end Haptics
