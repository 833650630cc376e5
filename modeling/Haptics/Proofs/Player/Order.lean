import Haptics.Player
import Haptics.Proofs.Service.Carriage
import Haptics.Proofs.Wire.Transmission

/-!
# A document is played in order

A player's calls find a service that others call before, between and behind them (`Surroundings`).
As long as the others bring no stream of the transmission that the player's document travels in, the
actuator is given the document's streams under one number and in order, as far as it is given them;
and under other numbers it is given only what the others have brought.

* `HapticDocument.sender?_of_mem_compile`: the streams of a document are of one transmission.
* `Player.carries_submitAll`: all packets, whatever happens between two of them.
* `Player.play_eq_or`: a player fails early, or sends what the document is compiled to.
* `Player.play_in_order`: the whole.
-/

namespace Haptics

variable {σ α : Type}

/-! ## The streams of a document -/

/-- **The streams of a document are of one transmission** if it is of version 2, and of none
otherwise. -/
theorem HapticDocument.sender?_of_mem_compile {document : HapticDocument} {options : PlayOptions}
    {sender : SenderId} {tailMs : Nat} {st : Stream}
    (h : st ∈ document.compile options sender tailMs) :
    st.sender? = if document.version = .two then some sender else none := by
  cases document with
  | v1 pattern =>
    rw [List.mem_singleton.1 h]
    rfl
  | v2 set =>
    obtain ⟨place, hplace, rfl⟩ := List.mem_mapIdx.1 h
    rfl

/-! ## Calls of a player -/

namespace Player

open Service Scheduler

section calls

variable {c : Context σ} {actuator : σ} {P : Stream → Prop} {id : Nat} {first : Stream}
  {own rest streams : List Stream} {s₀ s : Service σ α} {times : Nat → Instant}
  {others : Nat → Service σ α → Service σ α}

/-- **All packets are passed on**, until one is dropped, whatever happens between two of them. -/
theorem carries_submitAll (times : Nat → Instant) (ha : Apart P first)
    (hothers : ∀ n s, Relation.ReflTransGen (Stirs c P) s (others n s))
    (hrest : ∀ packet ∈ rest, ∀ x, packet.sender? = some x → first.sender? = some x) (calls : Nat)
    (h : s.Carries c actuator P id first own) (hid : id < s.nextVibration) :
    ∃ given, given <+: rest ∧
      (submitAll (fun n => c.asOf (times n)) others calls rest s).2.Carries c actuator P id first
        (own ++ given) ∧
      id < (submitAll (fun n => c.asOf (times n)) others calls rest s).2.nextVibration := by
  -- the induction is on the packets that are left; what has been passed on grows meanwhile
  induction rest generalizing calls own s with
  | nil =>
    refine ⟨[], List.nil_prefix, ?_, hid⟩
    rwa [List.append_nil]
  | cons packet rest ih =>
    obtain ⟨hpacket, hlater⟩ := List.forall_mem_cons.1 hrest
    obtain ⟨given, hgiven, hcarries, hnext, hforwarded⟩ := h.submit ha (times calls) hpacket
    unfold submitAll
    generalize s.submit (c.asOf (times calls)) packet = answer at hcarries hnext hforwarded ⊢
    obtain ⟨result, t⟩ := answer
    obtain ⟨hbehind, hknown⟩ := hcarries.behind ha (hid.trans_eq hnext.symm) (hothers calls t)
    rcases result with e | (n | -)
    · exact ⟨given, hgiven.trans (List.prefix_append _ rest), hbehind, hknown⟩
    · obtain rfl := hforwarded n rfl
      obtain ⟨given, hgiven, hcarries, hknown⟩ := ih hlater (calls + 1) hbehind hknown
      refine ⟨packet :: given, List.cons_prefix_cons.2 ⟨rfl, hgiven⟩, ?_, hknown⟩
      rwa [List.append_assoc] at hcarries
    · exact ⟨given, hgiven.trans (List.prefix_append _ rest), hbehind, hknown⟩

/-- A player whose vibration has been placed has its streams carried under the number of it. -/
theorem carriesOf_submitAll (times : Nat → Instant) (ha : Apart P first)
    (hothers : ∀ n s, Relation.ReflTransGen (Stirs c P) s (others n s))
    (hsame : ∀ packet ∈ rest, packet.sender? = first.sender?) (calls : Nat)
    (h : s.Carries c actuator P id first [first]) (hid : id < s.nextVibration) :
    (submitAll (fun n => c.asOf (times n)) others calls rest s).2.CarriesOf c actuator P
      (first :: rest) id := by
  have hrest : ∀ packet ∈ rest, ∀ x, packet.sender? = some x → first.sender? = some x :=
    fun packet hpacket x hx => (hsame packet hpacket).symm.trans hx
  obtain ⟨given, hgiven, hcarries, hknown⟩ := carries_submitAll times ha hothers hrest calls h hid
  exact ⟨first, first :: given, ha, List.cons_prefix_cons.2 ⟨rfl, hgiven⟩, hcarries, hknown⟩

/-- A player that sends streams has them carried under the number that it reports, and under none if
its request fails. -/
theorem carriesOf_send (hs₀ : Service.create c.config actuator = .ok s₀)
    (hs : Relation.ReflTransGen (Stirs c P) s₀ s)
    (hothers : ∀ n s, Relation.ReflTransGen (Stirs c P) s (others n s))
    (ha : ∀ st ∈ streams, Apart P st)
    (hsame : ∀ st ∈ streams, ∀ packet ∈ streams, packet.sender? = st.sender?) (p : Player) :
    let answer := p.send (fun n => c.asOf (times n)) others streams s
    ∃ id, answer.2.2.CarriesOf c actuator P streams id ∧
      ∀ report, answer.1 = .ok report → report.id = id := by
  cases streams with
  | nil => exact ⟨0, carriesOf_of_stirs hs₀ hs [], fun report he => (by cases he)⟩
  | cons first rest =>
    have hfirst := ha first List.mem_cons_self
    unfold send
    simp only
    generalize hr : VibrationRequest.mk p.uid p.package p.token p.attributes (.stream first) = r
    have hrequested := requested_vibrate (c.asOf (times 1)) r s
    generalize s.vibrate (c.asOf (times 1)) r = answer at hrequested
    cases hrequested with
    | @failed t e hs' hn =>
      refine ⟨0, carriesOf_of_stirs hs₀ ?_ _, fun report he => (by cases he)⟩
      exact (hs.tail (.idle hs' hn)).trans (hothers 1 t)
    | @placed t status hs' hn =>
      have hplaced := (carries_of_stirs hs₀ hs hfirst (.inl (Nat.le_refl _))).placed (times 1)
        (by rw [← hr]) hs' hn
      obtain ⟨hbehind, hknown⟩ := hplaced.behind hfirst (by omega) (hothers 1 t)
      have hcarries := carriesOf_submitAll times hfirst hothers
        (fun packet hpacket => hsame first List.mem_cons_self packet (List.mem_cons_of_mem _ hpacket))
        2 hbehind hknown
      refine ⟨s.nextVibration, ?_, ?_⟩
      · simp only
        split <;> next he => rwa [he] at hcarries
      · intro report he
        simp only at he
        split at he
        · cases he
          rfl
        · cases he

/-- A player that may ask for a document's streams either fails when it has asked what the actuator
plays, or sends them. -/
theorem play_eq_or (c : Nat → Context σ) (others : Nat → Service σ α → Service σ α) {text : String}
    {r : PlayRequest} {options : PlayOptions} {version : Version} {document : HapticDocument}
    (hprepare : prepare text r = .ok (options, version))
    (hread : HapticDocument.read text = .ok document) (p : Player) (s : Service σ α) :
    let asked := others 0 (s.actuatorInfo (c 0)).2
    (∃ e, p.play c others text r s = (.error e, p, asked)) ∨
      p.play c others text r s = p.send c others
        (document.compile options (p.takeSender version asked).1 (c 0).config.transientTailMs)
        (p.takeSender version asked).2 := by
  intro asked
  have hasked : asked = others 0 (s.actuatorInfo (c 0)).2 := rfl
  unfold play
  rw [hprepare]
  simp only
  generalize s.actuatorInfo (c 0) = answer at hasked
  rcases answer with ⟨e | info, t⟩
  · exact .inl ⟨e, by rw [hasked]⟩
  · simp only
    cases hdocument : readFor info version text with
    | error e => exact .inl ⟨.failure e, by rw [hasked]⟩
    | ok found =>
      have hfound : HapticDocument.read text = .ok found := by
        unfold readFor at hdocument
        split at hdocument
        · cases hdocument
        · split at hdocument
          · exact hdocument
          · cases hdocument
      cases hread.symm.trans hfound
      exact .inr (by rw [hasked])

/-- A player that plays a document has its streams carried under the number that it reports, and
under none if it does not get so far. -/
theorem carriesOf_play (hs₀ : Service.create c.config actuator = .ok s₀)
    (hs : Relation.ReflTransGen (Stirs c P) s₀ s)
    (hothers : ∀ n s, Relation.ReflTransGen (Stirs c P) s (others n s))
    {p : Player} {text : String} {r : PlayRequest} {options : PlayOptions} {version : Version}
    {document : HapticDocument} (hprepare : prepare text r = .ok (options, version))
    (hread : HapticDocument.read text = .ok document)
    (hapart : document.version = .two → ∀ st, P st →
      st.sender? ≠ some (p.takeSender version (others 0 (s.actuatorInfo (c.asOf (times 0))).2)).1) :
    let asked := others 0 (s.actuatorInfo (c.asOf (times 0))).2
    let answer := p.play (fun n => c.asOf (times n)) others text r s
    ∃ id, answer.2.2.CarriesOf c actuator P
        (document.compile options (p.takeSender version asked).1 c.config.transientTailMs) id ∧
      ∀ report, answer.1 = .ok report → report.id = id := by
  intro asked answer
  have hasked : Relation.ReflTransGen (Stirs c P) s₀ asked := by
    refine (hs.trans ?_).trans (hothers 0 _)
    exact stirs_undergo (a := .actuatorInfo) (times 0) (List.forall_mem_nil _) s
  have htaken : Relation.ReflTransGen (Stirs c P) s₀ (p.takeSender version asked).2 := by
    apply hasked.tail
    cases version <;> exact .idle rfl (Nat.le_refl _)
  rcases play_eq_or (fun n => c.asOf (times n)) others hprepare hread p s with ⟨e, he⟩ | hsend
  · refine ⟨0, ?_, fun report hr => ?_⟩
    · rw [show answer = (.error e, p, asked) from he]
      exact carriesOf_of_stirs hs₀ hasked _
    · rw [show answer = (.error e, p, asked) from he] at hr
      cases hr
  · rw [show answer = _ from hsend]
    refine carriesOf_send hs₀ htaken hothers (fun st hst foreign hP x hx => ?_) ?_ p
    · rw [HapticDocument.sender?_of_mem_compile hst]
      split
      · next htwo =>
        intro hsame
        exact hapart htwo foreign hP (hx.trans hsame.symm)
      · rintro ⟨⟩
    · intro st hst packet hpacket
      rw [HapticDocument.sender?_of_mem_compile hst, HapticDocument.sender?_of_mem_compile hpacket]

end calls

/-! ## A player among others -/

/-- What others do to a service while a player plays a document, and when the player makes its
calls. -/
structure Surroundings (σ α : Type) where
  /-- What happens before the player plays. -/
  before : List (Occasion σ α)
  /-- When the player makes its `n`-th call. -/
  calls : Nat → Instant
  /-- What happens behind its `n`-th call. -/
  between : Nat → List (Occasion σ α)
  /-- What happens when the player has played. -/
  later : List (Occasion σ α)

namespace Surroundings

/-- The others bring a stream at some time. -/
def Brings (w : Surroundings σ α) (st : Stream) : Prop :=
  ∃ o, (o ∈ w.before ∨ (∃ n, o ∈ w.between n) ∨ o ∈ w.later) ∧ st ∈ o.affair.brings

variable {c : Context σ} (w : Surroundings σ α)

/-- What happens before stirs the scheduler with streams of the others only. -/
theorem stirs_before (s : Service σ α) :
    Relation.ReflTransGen (Stirs c w.Brings) s (s.undergoAll c w.before) :=
  stirs_undergoAll (fun o ho _ hst => ⟨o, .inl ho, hst⟩) s

/-- So does what happens between two calls. -/
theorem stirs_between (n : Nat) (s : Service σ α) :
    Relation.ReflTransGen (Stirs c w.Brings) s (s.undergoAll c (w.between n)) :=
  stirs_undergoAll (fun o ho _ hst => ⟨o, .inr (.inl ⟨n, ho⟩), hst⟩) s

/-- So does what happens later. -/
theorem stirs_later (s : Service σ α) :
    Relation.ReflTransGen (Stirs c w.Brings) s (s.undergoAll c w.later) :=
  stirs_undergoAll (fun o ho _ hst => ⟨o, .inr (.inr ho), hst⟩) s

end Surroundings

/-- **A document is played in order, whatever happens around it.** A player plays a document that
can be read, on a service that others call before, between and behind its calls; if the document is
of version 2, the others bring no stream of the transmission that it travels in. Then there is a
number, which the player reports if it reports one, such that at every moment

* the streams that the actuator has taken under the number are a first part of the document's, in
  their order;
* every stream that it has taken under another number has been brought by the others; so if the
  document is of version 2 none of its streams has been taken under another number.

What the actuator has taken up to some moment is a tail of what it has been told in the end, which
is written with the latest first. -/
theorem play_in_order (c : Context σ) (actuator : σ) {s₀ : Service σ α}
    (hs₀ : Service.create c.config actuator = .ok s₀) (w : Surroundings σ α) (p : Player)
    {text : String} {r : PlayRequest} {options : PlayOptions} {version : Version}
    {document : HapticDocument} (hprepare : prepare text r = .ok (options, version))
    (hread : HapticDocument.read text = .ok document) :
    let found := s₀.undergoAll c w.before
    let asked := ((found.actuatorInfo (c.asOf (w.calls 0))).2).undergoAll c (w.between 0)
    let sender := (p.takeSender version asked).1
    let streams := document.compile options sender c.config.transientTailMs
    let answer := p.play (fun n => c.asOf (w.calls n)) (fun n t => t.undergoAll c (w.between n))
      text r found
    let issued := (answer.2.2.undergoAll c w.later).scheduler.issued
    (document.version = .two → ∀ st, w.Brings st → st.sender? ≠ some sender) →
    ∃ id, (∀ report, answer.1 = .ok report → report.id = id) ∧
      ∀ past, past <:+ issued →
        streamsFor id past <+: streams ∧
        ∀ n, n ≠ id → ∀ st ∈ streamsFor n past,
          w.Brings st ∧ (document.version = .two → st ∉ streams) := by
  intro found asked sender streams answer issued hapart
  obtain ⟨id, hcarries, hreport⟩ := carriesOf_play hs₀ (w.stirs_before s₀)
    (fun n => w.stirs_between n) (p := p) hprepare hread hapart
  obtain ⟨hown, hforeign⟩ := (hcarries.stirsAll (w.stirs_later _)).streamed
  refine ⟨id, hreport, fun past hpast => ⟨?_, fun n hn st hst => ?_⟩⟩
  · exact (streamsFor_of_suffix hpast).trans hown
  · have hbrought : w.Brings st := hforeign n hn st ((streamsFor_of_suffix hpast).subset hst)
    refine ⟨hbrought, fun htwo hmem => ?_⟩
    apply hapart htwo st hbrought
    rw [HapticDocument.sender?_of_mem_compile hmem, if_pos htwo]

end Player

/-! ## Twelve taps behind a stream on the bench -/

/-- The document that a text of characters stands for. -/
theorem HapticDocument.read_ofList (text : List Char) :
    read (String.ofList text) =
      ((Json.read? text).bind RawDocument.ofJson?).elim (.error (.malformed .unreadable))
        RawDocument.validate := by
  unfold read RawDocument.read
  rw [String.toList_ofList]
  cases (Json.read? text).bind RawDocument.ofJson? <;> rfl

/-- The version that a text declares is read from its value, if it has one. -/
theorem HapticDocument.declaredVersion_ofList (text : List Char) :
    declaredVersion (String.ofList text) =
      ((Json.read? text).bind RawDocument.declaredVersion?).elim (.error (.malformed .unreadable))
        Version.ofInt := by
  unfold declaredVersion
  rw [String.toList_ofList]
  cases (Json.read? text).bind RawDocument.declaredVersion? <;> rfl

namespace Player

open Service Scheduler

/-- The text of twelve taps, with their records written as arrays. -/
def tapsText : String :=
  String.ofList ("\x7b\"Metadata\":[2],\"PatternList\":[".toList ++
    List.intercalate [','] ((List.range 12).map fun k =>
      '[' :: Nat.toDigits 10 (100 * k) ++ ",[[[\"transient\",0,null,0,[50,50]]]]]".toList) ++
    "]\x7d".toList)

/-- How a document is played if nothing else is said: until it is stopped. -/
def endlessly : PlayOptions := { loop := .infinite }

/-- The taps are of version 2 and play without end. -/
theorem prepare_tapsText : prepare tapsText {} = .ok (endlessly, .two) := by
  have hversion : HapticDocument.declaredVersion tapsText = .ok .two := by
    unfold tapsText
    rw [HapticDocument.declaredVersion_ofList]
    decide +kernel
  unfold prepare
  rw [hversion]
  decide

/-- The taps are read as twelve patterns. -/
theorem read_tapsText : HapticDocument.read tapsText = .ok (.v2 (Transmission.taps 12)) := by
  unfold tapsText
  rw [HapticDocument.read_ofList]
  decide +kernel

/-- A client. -/
def tapper : Player := { uid := 3, package := "taps", pid := 7, token := 3 }

/-- A stream of somebody else plays already. It is told to stop, which the motor never reports; so
it is given up when the patience of the scheduler ends. -/
def behindHum : Surroundings Bench Unit where
  before := [⟨⟨.permissive, 0⟩, .vibrate hum⟩]
  calls _ := ⟨.permissive, 5⟩
  between _ := []
  later := [⟨⟨.permissive, 9999⟩, .deadline⟩]

/-- What comes of playing a text behind the stream. -/
def playedBehindHum (text : String) :
    Except ServiceError VibrationReport × Player × Service Bench Unit :=
  tapper.play (fun n => onBench.asOf (behindHum.calls n))
    (fun n t => t.undergoAll onBench (behindHum.between n)) text {}
    (({ scheduler := .create onBench.config bench } : Service Bench Unit).undergoAll onBench
      behindHum.before)

/-- The two streams of the taps. -/
def tapsStreams : List Stream :=
  (HapticDocument.v2 (Transmission.taps 12)).compile endlessly ⟨7, 1⟩ onBench.config.transientTailMs

/-- The taps wait for the stream, with both packets, and then they are played. The text stays a
variable, so that it need not be read again. -/
theorem playedBehindHum_eq {text : String} (hprepare : prepare text {} = .ok (endlessly, .two))
    (hread : HapticDocument.read text = .ok (.v2 (Transmission.taps 12))) :
    (playedBehindHum text).1 = .ok ⟨2, .pending⟩ ∧
      streamsFor 2 ((playedBehindHum text).2.2.undergoAll onBench
        behindHum.later).scheduler.issued = tapsStreams := by
  unfold playedBehindHum play readFor
  simp only [hprepare, hread]
  decide +kernel

/-- Twelve taps travel in two packets. Both wait behind the other stream, and are given in order
when that is gone. -/
theorem play_in_order_behindHum :
    (Service.create onBench.config bench =
        .ok ({ scheduler := .create onBench.config bench } : Service Bench Unit) ∧
      prepare tapsText {} = .ok (endlessly, .two) ∧
      HapticDocument.read tapsText = .ok (.v2 (Transmission.taps 12)) ∧
      ∀ st, behindHum.Brings st → st.sender? ≠ some ⟨7, 1⟩) ∧
    let issued :=
      ((playedBehindHum tapsText).2.2.undergoAll onBench behindHum.later).scheduler.issued
    (playedBehindHum tapsText).1 = .ok ⟨2, .pending⟩ ∧ streamsFor 2 issued = tapsStreams ∧
      ∀ past, past <:+ issued →
        streamsFor 2 past <+: tapsStreams ∧
        ∀ n, n ≠ 2 → ∀ st ∈ streamsFor n past, behindHum.Brings st ∧ st ∉ tapsStreams := by
  have hcreate : Service.create onBench.config bench =
      .ok ({ scheduler := .create onBench.config bench } : Service Bench Unit) := by rfl
  have hapart : ∀ st, behindHum.Brings st → st.sender? ≠ some ⟨7, 1⟩ := by
    rintro st ⟨o, ho | ⟨n, ho⟩ | ho, hst⟩
    · cases List.mem_singleton.1 ho
      cases List.mem_singleton.1 hst
      decide
    · cases ho
    · cases List.mem_singleton.1 ho
      cases hst
  obtain ⟨hanswer, hgiven⟩ := playedBehindHum_eq prepare_tapsText read_tapsText
  refine ⟨⟨hcreate, prepare_tapsText, read_tapsText, hapart⟩, hanswer, hgiven, ?_⟩
  have hsender : (tapper.takeSender .two
      (((({ scheduler := .create onBench.config bench } : Service Bench Unit).undergoAll onBench
        behindHum.before).actuatorInfo (onBench.asOf (behindHum.calls 0))).2.undergoAll onBench
          (behindHum.between 0))).1 = ⟨7, 1⟩ := by decide +kernel
  have hplayed := play_in_order onBench bench hcreate behindHum tapper prepare_tapsText
    read_tapsText
  simp only [hsender] at hplayed
  obtain ⟨id, hid, hall⟩ := hplayed fun _ => hapart
  obtain rfl : 2 = id := hid _ hanswer
  unfold playedBehindHum tapsStreams
  intro past hpast
  obtain ⟨hown, hforeign⟩ := hall past hpast
  refine ⟨hown, fun n hn st hst => ?_⟩
  obtain ⟨hbrought, hnot⟩ := hforeign n hn st hst
  exact ⟨hbrought, hnot rfl⟩

end Player

end Haptics
