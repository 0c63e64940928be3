import DiveCANHead.Cells.DiveO2Frames
import DiveCANHead.Lib.Runs

/-!
# An OK status stands for a good frame

A good status is written by the parser and by the calibration thread, and taken back by three
checks. What it claims of the state is `Backed`: the last measurement frame was good, and each check
the broadcast has passed was. A reload in the middle of a broadcast, or after a faulty frame, breaks
it, and so do a code that is zero only in its lowest 16 bits and a reading just outside the wire's
range.
-/

namespace DiveCANHead.Cells

open DiveCANHead.Lib DiveCANHead.Calibration

/-! ## What is promised -/

/-- A PPO2 in centibar that the wire can show. -/
def Representable (centibar : ℚ) : Prop :=
  0 ≤ roundAway centibar ∧ roundAway centibar ≤ maxValidPpo2

/-- A message says what a measurement frame said, checked at a clock reading and at a reading of the
supply. -/
structure Carried (rate : ℕ) (now : ℤ) (vbus : ℚ) (msg : DiveO2Msg) (m : Measurement)
    (r : FrameReading) : Prop where
  wellFormed : m.reading = some r
  errCode : r.errCode = 0
  rawSample : msg.rawSample = r.ppo2
  precision : ∃ coeff, CellType.diveO2.Valid coeff ∧ msg.precisionPpo2 = r.ppo2 / coeff
  representable : Representable (msg.precisionPpo2 * centibarPerBar)
  recent : (now - m.ticks) * 1000 ≤ 1000 * rate
  supply : ¬ UnderVolt vbus

/-- What is asked of a step: a status published as good is carried by the last measurement frame,
and after a faulty frame only a good one makes the status good again. -/
structure StatusSound (rate : ℕ) (s : DiveO2System) (e : DiveO2Event) (t : DiveO2System) :
    Prop where
  published : ∀ ts, e = .publish ts → t.channel.status = .ok →
    ∃ now vbus m r, s.stage.now? = some now ∧ s.stage.vbus? = some vbus ∧ s.received = some m ∧
      Carried rate now vbus t.channel m r
  recovered : (∃ m, s.received = some m ∧ ¬ m.Good) → t.cell.status = .ok →
    (∃ now, e = .frame now) ∧ ∃ m, t.received = some m ∧ m.Good

/-- What a good status claims: the last measurement frame, if there was one, was good, and so was
every check the broadcast under way has made. -/
structure Backed (rate : ℕ) (s : DiveO2System) : Prop where
  good : ∀ m, s.received = some m → m.Good
  recent : ∀ now, s.stage.now? = some now →
    ∃ m, s.received = some m ∧ now - m.ticks ≤ diveo2TimeoutTicks rate
  supply : ∀ vbus, s.stage.vbus? = some vbus → ¬ UnderVolt vbus
  representable : ∀ p, s.stage.precision? = some p → Representable (p * centibarPerBar)

/-- The conditions on a step. A line that is parsed is what was received, and no error code is zero
in its lowest 16 bits only; a reload that succeeds finds nothing to hide; before the first frame no
broadcast comes within the timeout; and no reading lies between the wire's range and the range that
is checked. -/
def DiveO2Event.Clean (rate : ℕ) (s : DiveO2System) : DiveO2Event → Prop
  | .frame _ =>
    (Intact s.delivered ∨ measurementOf (diveo2Message s.cell.lastMessage) = none ∧
      measurementOf (lineText s.delivered) = none) ∧
    ∀ r, measurementOf (lineText s.delivered) = some (some r) → toLong r.errCode % 65536 = 0 →
      r.errCode = 0
  | .calDone stored => (diveo2LoadCal stored).status = .ok → Backed rate s
  | .checkAge now => s.cell.status = .ok → s.received = none →
      diveo2TimeoutTicks rate < now - s.cell.lastPpo2Ticks
  | .convert => s.cell.status = .ok →
      -(1 / 2) < s.cell.precisionPpo2 * centibarPerBar ∧
        s.cell.precisionPpo2 * centibarPerBar < maxValidPpo2 + 1 / 2 ∨
      ppo2OverrangeLimit < s.cell.precisionPpo2 * centibarPerBar
  | _ => True

theorem backed_iff {rate : ℕ} {s : DiveO2System} :
    Backed rate s ↔ (∀ m ∈ s.received, m.Good) ∧
      (∀ now ∈ s.stage.now?, ∃ m ∈ s.received, now - m.ticks ≤ diveo2TimeoutTicks rate) ∧
      (∀ vbus ∈ s.stage.vbus?, ¬ UnderVolt vbus) ∧
      ∀ p ∈ s.stage.precision?, Representable (p * centibarPerBar) :=
  ⟨fun h => ⟨h.good, h.recent, h.supply, h.representable⟩, fun h => ⟨h.1, h.2.1, h.2.2.1, h.2.2.2⟩⟩

instance (centibar : ℚ) : Decidable (Representable centibar) := inferInstanceAs (Decidable (_ ∧ _))

instance (rate : ℕ) (s : DiveO2System) : Decidable (Backed rate s) :=
  decidable_of_iff _ backed_iff.symm

instance (line : Text) : Decidable (Intact line) :=
  decidable_of_iff (lineText line ≠ [] ∧ 0 ∉ lineText line)
    ⟨fun h => ⟨h.1, h.2⟩, fun h => ⟨h.ne_nil, h.nul⟩⟩

instance DiveO2Event.decidableClean (rate : ℕ) (s : DiveO2System) :
    ∀ e : DiveO2Event, Decidable (e.Clean rate s)
  | .frame _ =>
    decidable_of_iff ((Intact s.delivered ∨
        measurementOf (diveo2Message s.cell.lastMessage) = none ∧
          measurementOf (lineText s.delivered) = none) ∧
        ∀ r ∈ (measurementOf (lineText s.delivered)).join, toLong r.errCode % 65536 = 0 →
          r.errCode = 0)
      (and_congr_right fun _ => forall_congr' fun _ => by
        rw [Option.mem_def, Option.join_eq_some_iff])
  | .calDone stored => inferInstanceAs (Decidable (_ → Backed rate s))
  | .checkAge _ => inferInstanceAs (Decidable (_ → _ → _))
  | .convert => inferInstanceAs (Decidable (_ → _ ∨ _))
  | .rxRdy _ | .rxDisabled | .rxSync | .timeout | .checkSupply _ | .publish _ => isTrue trivial

/-! ## Readings in range -/

theorem neg_half_lt_of_roundAway {x : ℚ} (h : 0 ≤ roundAway x) : -(1 / 2) < x := by
  by_contra hx
  have := roundAway_neg_of_le (not_lt.mp hx)
  omega

theorem representable_iff {x : ℚ} :
    Representable x ↔ -(1 / 2) < x ∧ x < maxValidPpo2 + 1 / 2 := by
  have hup : roundAway x ≤ (maxValidPpo2 : ℤ) ↔ x < maxValidPpo2 + 1 / 2 := by
    exact_mod_cast roundAway_le_iff (x := x) (n := maxValidPpo2) (by decide)
  rw [Representable, hup]
  refine and_congr_left fun _ => ⟨neg_half_lt_of_roundAway, fun h => ?_⟩
  have hneg : roundAway (-x) ≤ 0 :=
    (roundAway_le_iff (n := 0) (le_refl _)).mpr (by norm_num; linarith)
  rcases le_or_gt 0 x with hx | hx
  · exact roundAway_nonneg hx
  · rw [roundAway_of_neg hx]
    have hfloor := roundAway_of_nonneg (x := -x) (by linarith)
    omega

/-- A reading in the wire's range did not reach the ends of a `long`. -/
theorem exact_of_representable {z : ℤ} {coeff : ℚ} (hc : CellType.diveO2.Valid coeff)
    (h : Representable ((toLong z : ℚ) / coeff * centibarPerBar)) : toLong z = z := by
  obtain ⟨hlo, hup⟩ := representable_iff.mp h
  obtain ⟨hclo, hcup⟩ := hc
  simp only [CellType.calLower, CellType.calUpper, centibarPerBar, maxValidPpo2]
    at hlo hup hclo hcup
  have hpos : 0 < coeff := by linarith
  have hz : (toLong z : ℚ) = (toLong z : ℚ) / coeff * 100 * coeff / 100 := by field_simp
  have hlo' : (-1 : ℚ) * coeff ≤ (toLong z : ℚ) / coeff * 100 * coeff :=
    mul_le_mul_of_nonneg_right (by linarith) hpos.le
  have hup' : (toLong z : ℚ) / coeff * 100 * coeff ≤ 255 * coeff :=
    mul_le_mul_of_nonneg_right (by norm_num at hup; linarith) hpos.le
  have hmin : ((-11000 : ℤ) : ℚ) ≤ toLong z := by push_cast; linarith
  have hmax : (toLong z : ℚ) ≤ (2805000 : ℤ) := by push_cast; linarith
  have hmin := Int.cast_le.mp hmin
  have hmax := Int.cast_le.mp hmax
  exact toLong_exact (by simp only [longMin]; omega) (by simp only [longMax]; omega)

theorem diveo2LoadCal_valid (stored : Option ℚ) :
    CellType.diveO2.Valid (diveo2LoadCal stored).calCoeff := by
  have hdefault : CellType.diveO2.Valid diveo2CalDefault := by
    simp only [CellType.Valid, CellType.calLower, CellType.calUpper, diveo2CalDefault]
    norm_num
  cases stored with
  | none => exact hdefault
  | some coeff =>
    simp only [diveo2LoadCal, digitalLoadCal]
    split
    · rename_i hin
      exact ⟨hin.1.le, hin.2.le⟩
    · exact hdefault

/-! ## The invariant -/

/-- What every step keeps: the reading in the cell is the last well-formed frame's, and a good
status is backed. -/
structure DiveO2Inv (rate : ℕ) (s : DiveO2System) : Prop where
  coeff : CellType.diveO2.Valid s.cell.calCoeff
  mailbox : Mailbox s
  latest : ∀ m r, s.received = some m → m.reading = some r →
    s.cell.rawPpo2Millihpa = toLong r.ppo2 ∧ s.cell.lastPpo2Ticks = m.ticks
  converted : ∀ p, s.stage.precision? = some p →
    ∃ coeff, CellType.diveO2.Valid coeff ∧ p = s.cell.rawPpo2Millihpa / coeff
  backed : s.cell.status = .ok → Backed rate s

/-- What is the same where only the receiver has moved. -/
structure SameReading (s t : DiveO2System) : Prop where
  stage : t.stage = s.stage
  received : t.received = s.received
  calCoeff : t.cell.calCoeff = s.cell.calCoeff
  status : t.cell.status = s.cell.status
  rawPpo2Millihpa : t.cell.rawPpo2Millihpa = s.cell.rawPpo2Millihpa
  lastPpo2Ticks : t.cell.lastPpo2Ticks = s.cell.lastPpo2Ticks

theorem SameReading.refl (s : DiveO2System) : SameReading s s := ⟨rfl, rfl, rfl, rfl, rfl, rfl⟩

theorem SameReading.trans {s t u : DiveO2System} (h : SameReading s t) (h' : SameReading t u) :
    SameReading s u :=
  ⟨h'.stage.trans h.stage, h'.received.trans h.received, h'.calCoeff.trans h.calCoeff,
    h'.status.trans h.status, h'.rawPpo2Millihpa.trans h.rawPpo2Millihpa,
    h'.lastPpo2Ticks.trans h.lastPpo2Ticks⟩

theorem sameReading_feed (s : DiveO2System) (byte : UInt8) : SameReading s (s.feed byte) := by
  simp only [DiveO2System.feed, diveo2FeedByte]
  split
  · split
    · exact ⟨rfl, rfl, rfl, rfl, rfl, rfl⟩
    · exact ⟨rfl, rfl, rfl, rfl, rfl, rfl⟩
  · split
    · exact ⟨rfl, rfl, rfl, rfl, rfl, rfl⟩
    · exact ⟨rfl, rfl, rfl, rfl, rfl, rfl⟩

theorem sameReading_feedAll (s : DiveO2System) (bytes : List UInt8) :
    SameReading s (bytes.foldl DiveO2System.feed s) := by
  induction bytes generalizing s with
  | nil => exact .refl s
  | cons byte bytes ih => exact (sameReading_feed s byte).trans (ih (s.feed byte))

section Steps

variable {rate : ℕ} {s : DiveO2System}

theorem Backed.congr {t : DiveO2System} (h : Backed rate s) (hstage : t.stage = s.stage)
    (hreceived : t.received = s.received) : Backed rate t :=
  ⟨hreceived ▸ h.good, by rw [hstage, hreceived]; exact h.recent, hstage ▸ h.supply,
    hstage ▸ h.representable⟩

/-- Outside a broadcast only the last frame counts. -/
theorem backed_start (hstage : s.stage = .start) (hgood : ∀ m, s.received = some m → m.Good) :
    Backed rate s :=
  ⟨hgood, by simp [hstage, BroadcastStage.now?], by simp [hstage, BroadcastStage.vbus?],
    by simp [hstage, BroadcastStage.precision?]⟩

theorem DiveO2Inv.congr {t : DiveO2System} (hi : DiveO2Inv rate s) (h : SameReading s t)
    (hbox : Mailbox t) : DiveO2Inv rate t where
  coeff := h.calCoeff ▸ hi.coeff
  mailbox := hbox
  latest := by rw [h.received, h.rawPpo2Millihpa, h.lastPpo2Ticks]; exact hi.latest
  converted := by rw [h.stage, h.rawPpo2Millihpa]; exact hi.converted
  backed hok := (hi.backed (h.status ▸ hok)).congr h.stage h.received

/-- What is taken and what was received say the same. -/
theorem DiveO2Inv.said (hi : DiveO2Inv rate s) {now : ℤ}
    (hc : (DiveO2Event.frame now).Clean rate s) :
    measurementOf (diveo2Message s.cell.lastMessage) = measurementOf (lineText s.delivered) := by
  rcases hc.1 with hintact | ⟨hparsed, hline⟩
  · rw [hi.mailbox.message_eq hintact]
  · rw [hparsed, hline]

theorem diveO2Inv_frame {now : ℤ} (hi : DiveO2Inv rate s) (hstage : s.stage = .start)
    (hc : (DiveO2Event.frame now).Clean rate s) : DiveO2Inv rate (s.takeFrame now) := by
  obtain ⟨cell, hcell⟩ : ∃ cell, cell = { s.cell with rxSem := false } := ⟨_, rfl⟩
  have htake : (s.takeFrame now).cell = diveo2ProcessRx now cell := by
    rw [hcell, DiveO2System.takeFrame]
  have hstage' : (s.takeFrame now).stage = .start := (s.takeFrame_stage now).trans hstage
  have hmessage : cell.lastMessage = s.cell.lastMessage := by rw [hcell]
  have hdone := diveo2ProcessRx_processed now cell
  obtain ⟨hcoeff, hheld, hline⟩ := diveo2ProcessRx_kept now cell
  rw [← htake, hcell] at hcoeff hheld hline
  have hbox : Mailbox (s.takeFrame now) := hi.mailbox.congr hline (s.takeFrame_delivered now) hheld
  have hconverted : ∀ p, (s.takeFrame now).stage.precision? = some p → ∃ coeff,
      CellType.diveO2.Valid coeff ∧ p = (s.takeFrame now).cell.rawPpo2Millihpa / coeff :=
    fun p hp => by
      rw [hstage'] at hp
      simp [BroadcastStage.precision?] at hp
  rw [hmessage, hi.said hc, ← htake] at hdone
  cases hm : measurementOf (lineText s.delivered) with
  | none =>
    rw [hm] at hdone
    have hsame : (s.takeFrame now).cell = { s.cell with rxSem := false } := hdone.trans hcell
    have hreceived : (s.takeFrame now).received = s.received := by
      simp [DiveO2System.takeFrame_received, hm]
    exact hi.congr ⟨s.takeFrame_stage now, hreceived, hcoeff, by rw [hsame], by rw [hsame],
      by rw [hsame]⟩ hbox
  | some reading =>
    have hreceived : (s.takeFrame now).received = some ⟨now, reading⟩ := by
      simp [DiveO2System.takeFrame_received, hm]
    rw [hm] at hdone
    cases reading with
    | none =>
      refine ⟨hcoeff ▸ hi.coeff, hbox, ?_, hconverted, ?_⟩
      · intro m r hmr hr
        rw [hreceived] at hmr
        exact absurd (Option.some.inj hmr ▸ hr) (by simp)
      · intro hok
        exact absurd (hok.symm.trans (congrArg DiveO2Cell.status hdone)) (by simp)
    | some r =>
      refine ⟨hcoeff ▸ hi.coeff, hbox, ?_, hconverted, ?_⟩
      · intro m r' hmr hr
        obtain rfl := Option.some.inj (hreceived.symm.trans hmr)
        obtain rfl := Option.some.inj hr
        exact ⟨hdone.rawPpo2Millihpa, hdone.lastPpo2Ticks⟩
      · intro hok
        refine backed_start hstage' fun m hmr => ?_
        obtain rfl := Option.some.inj (hreceived.symm.trans hmr)
        exact congrArg some (hc.2 r hm (hdone.status.mp hok))

theorem Measurement.Good.reads {m : Measurement} (h : m.Good) :
    ∃ r, m.reading = some r ∧ r.errCode = 0 := by
  obtain ⟨r, hr, he⟩ := Option.map_eq_some_iff.mp h
  exact ⟨r, hr, he⟩

theorem diveO2Inv_calDone {stored : Option ℚ} (hi : DiveO2Inv rate s)
    (hc : (DiveO2Event.calDone stored).Clean rate s) :
    DiveO2Inv rate { s with cell := diveo2Reload stored s.cell } where
  coeff := diveo2LoadCal_valid stored
  mailbox := hi.mailbox.congr rfl rfl rfl
  latest := hi.latest
  converted := hi.converted
  backed hok := (hc hok).congr rfl rfl

/-- A frame that is not too old was there. -/
theorem DiveO2Inv.recent {now : ℤ} (hi : DiveO2Inv rate s) (hok : s.cell.status = .ok)
    (hc : (DiveO2Event.checkAge now).Clean rate s)
    (hage : now - s.cell.lastPpo2Ticks ≤ diveo2TimeoutTicks rate) :
    ∃ m, s.received = some m ∧ now - m.ticks ≤ diveo2TimeoutTicks rate := by
  cases hm : s.received with
  | none => exact absurd (hc hok hm) (by omega)
  | some m =>
    obtain ⟨r, hr, -⟩ := ((hi.backed hok).good m hm).reads
    exact ⟨m, rfl, (hi.latest m r hm hr).2 ▸ hage⟩

theorem diveO2Inv_checkAge {now : ℤ} (hi : DiveO2Inv rate s)
    (hc : (DiveO2Event.checkAge now).Clean rate s) :
    DiveO2Inv rate { s with
      cell := { s.cell with
        status := ageChecked (diveo2TimeoutTicks rate) now s.cell.lastPpo2Ticks s.cell.status }
      stage := .aged now } where
  coeff := hi.coeff
  mailbox := hi.mailbox.congr rfl rfl rfl
  latest := hi.latest
  converted p hp := by simp [BroadcastStage.precision?] at hp
  backed hok := by
    obtain ⟨hok, hage⟩ := ageChecked_ok hok
    refine ⟨(hi.backed hok).good, fun now' hnow => ?_, ?_, ?_⟩
    · rw [← Option.some.inj hnow]
      exact hi.recent hok hc hage
    · simp [BroadcastStage.vbus?]
    · simp [BroadcastStage.precision?]

theorem diveO2Inv_checkSupply {now : ℤ} {vbus : ℚ} (hi : DiveO2Inv rate s)
    (hstage : s.stage = .aged now) :
    DiveO2Inv rate { s with
      cell := { s.cell with status := supplyChecked vbus s.cell.status }
      stage := .powered now vbus } where
  coeff := hi.coeff
  mailbox := hi.mailbox.congr rfl rfl rfl
  latest := hi.latest
  converted p hp := by simp [BroadcastStage.precision?] at hp
  backed hok := by
    obtain ⟨hok, hvbus⟩ := supplyChecked_ok hok
    have hb := hi.backed hok
    refine ⟨hb.good, fun now' hnow => hb.recent now' (hstage ▸ hnow), fun v hv => ?_, ?_⟩
    · exact Option.some.inj hv ▸ hvbus
    · simp [BroadcastStage.precision?]

theorem diveO2Inv_convert {now : ℤ} {vbus : ℚ} (hi : DiveO2Inv rate s)
    (hstage : s.stage = .powered now vbus) (hc : DiveO2Event.convert.Clean rate s) :
    DiveO2Inv rate { s with
      cell := { s.cell with status := overrangeChecked s.cell.precisionPpo2 s.cell.status }
      stage := .converted now vbus s.cell.precisionPpo2 } where
  coeff := hi.coeff
  mailbox := hi.mailbox.congr rfl rfl rfl
  latest := hi.latest
  converted p hp := ⟨s.cell.calCoeff, hi.coeff, (Option.some.inj hp).symm⟩
  backed hok := by
    simp only [overrangeChecked] at hok
    split at hok
    · exact absurd hok (by simp)
    · rename_i hrange
      have hb := hi.backed hok
      refine ⟨hb.good, fun now' hnow => hb.recent now' (hstage ▸ hnow),
        fun v hv => hb.supply v (hstage ▸ hv), fun p hp => ?_⟩
      rw [← Option.some.inj hp]
      exact representable_iff.mpr ((hc hok).resolve_right hrange)

theorem diveO2Inv_publish {precision : ℚ} {now : ℤ} (hi : DiveO2Inv rate s) :
    DiveO2Inv rate { s with channel := diveo2Msg s.cell precision now, stage := .start } where
  coeff := hi.coeff
  mailbox := hi.mailbox.congr rfl rfl rfl
  latest := hi.latest
  converted p hp := by simp [BroadcastStage.precision?] at hp
  backed hok := backed_start rfl (hi.backed hok).good

end Steps

/-- Every step keeps the invariant where its condition holds. -/
theorem DiveO2Inv.step {rate : ℕ} {s t : DiveO2System} {e : DiveO2Event} (hi : DiveO2Inv rate s)
    (hc : e.Clean rate s) (hstep : diveo2Step rate s e = some t) : DiveO2Inv rate t := by
  cases e with
  | rxRdy bytes =>
    rw [← Option.some.inj hstep]
    exact hi.congr (sameReading_feedAll s bytes) (hi.mailbox.feedAll bytes)
  | rxDisabled =>
    rw [← Option.some.inj hstep]
    exact hi.congr ⟨rfl, rfl, rfl, rfl, rfl, rfl⟩ (hi.mailbox.drop rfl rfl)
  | rxSync =>
    obtain ⟨-, ht⟩ := Option.ite_none_right_eq_some.mp hstep
    rw [← Option.some.inj ht]
    exact hi.congr ⟨rfl, rfl, rfl, rfl, rfl, rfl⟩ (hi.mailbox.drop rfl rfl)
  | frame now =>
    obtain ⟨⟨hstage, -⟩, ht⟩ := Option.ite_none_right_eq_some.mp hstep
    exact Option.some.inj ht ▸ diveO2Inv_frame hi hstage hc
  | timeout =>
    obtain ⟨-, ht⟩ := Option.ite_none_right_eq_some.mp hstep
    exact Option.some.inj ht ▸ hi
  | calDone stored => exact Option.some.inj hstep ▸ diveO2Inv_calDone hi hc
  | checkAge now =>
    simp only [diveo2Step] at hstep
    split at hstep
    · exact Option.some.inj hstep ▸ diveO2Inv_checkAge hi hc
    · exact absurd hstep (by simp)
  | checkSupply vbus =>
    simp only [diveo2Step] at hstep
    split at hstep
    · rename_i hstage
      exact Option.some.inj hstep ▸ diveO2Inv_checkSupply hi hstage
    · exact absurd hstep (by simp)
  | convert =>
    simp only [diveo2Step] at hstep
    split at hstep
    · rename_i hstage
      exact Option.some.inj hstep ▸ diveO2Inv_convert hi hstage hc
    · exact absurd hstep (by simp)
  | publish now =>
    simp only [diveo2Step] at hstep
    split at hstep
    · exact Option.some.inj hstep ▸ diveO2Inv_publish hi
    · exact absurd hstep (by simp)

/-- Only the frames that are taken change what was received last. -/
theorem received_kept {rate : ℕ} {s t : DiveO2System} {e : DiveO2Event}
    (hstep : diveo2Step rate s e = some t) (he : ∀ now, e ≠ .frame now) :
    t.received = s.received := by
  cases e with
  | frame now => exact absurd rfl (he now)
  | rxRdy bytes => exact Option.some.inj hstep ▸ (sameReading_feedAll s bytes).received
  | rxDisabled | calDone stored => rw [← Option.some.inj hstep]
  | rxSync | timeout =>
    obtain ⟨-, ht⟩ := Option.ite_none_right_eq_some.mp hstep
    rw [← Option.some.inj ht]
  | checkAge now | checkSupply vbus | convert | publish now =>
    simp only [diveo2Step] at hstep
    split at hstep
    · rw [← Option.some.inj hstep]
    · exact absurd hstep (by simp)

/-- What a backed status publishes is carried by the last frame. -/
theorem DiveO2Inv.carried {rate : ℕ} {s : DiveO2System} {now ts : ℤ} {vbus p : ℚ}
    (hi : DiveO2Inv rate s) (hstage : s.stage = .converted now vbus p)
    (hok : s.cell.status = .ok) :
    ∃ m r, s.received = some m ∧ Carried rate now vbus (diveo2Msg s.cell p ts) m r := by
  have hb := hi.backed hok
  obtain ⟨m, hm, hage⟩ := hb.recent now (by rw [hstage]; rfl)
  obtain ⟨r, hr, he⟩ := (hb.good m hm).reads
  obtain ⟨coeff, hcoeff, hp⟩ := hi.converted p (by rw [hstage]; rfl)
  have hraw := (hi.latest m r hm hr).1
  have hin : Representable (p * centibarPerBar) := hb.representable p (by rw [hstage]; rfl)
  have hexact : s.cell.rawPpo2Millihpa = r.ppo2 := by
    rw [hp, hraw] at hin
    exact hraw.trans (exact_of_representable hcoeff hin)
  refine ⟨m, r, hm, hr, he, hexact, ⟨coeff, hcoeff, hexact ▸ hp⟩, hin, ?_,
    hb.supply vbus (by rw [hstage]; rfl)⟩
  simp only [diveo2TimeoutTicks, kMsToTicksCeil64] at hage
  omega

theorem DiveO2Inv.sound {rate : ℕ} {s t : DiveO2System} {e : DiveO2Event} (hi : DiveO2Inv rate s)
    (hi' : DiveO2Inv rate t) (hstep : diveo2Step rate s e = some t) : StatusSound rate s e t where
  published ts he hok := by
    subst he
    simp only [diveo2Step] at hstep
    split at hstep
    · rename_i now vbus p hstage
      obtain rfl := Option.some.inj hstep
      obtain ⟨m, r, hm, hcarried⟩ := hi.carried hstage hok
      exact ⟨now, vbus, m, r, by rw [hstage]; rfl, by rw [hstage]; rfl, hm, hcarried⟩
    · exact absurd hstep (by simp)
  recovered := by
    intro ⟨m, hm, hbad⟩ hok
    have hgood := (hi'.backed hok).good
    by_cases he : ∃ now, e = .frame now
    · refine ⟨he, ?_⟩
      obtain ⟨now, rfl⟩ := he
      obtain ⟨-, ht⟩ := Option.ite_none_right_eq_some.mp hstep
      cases hm' : t.received with
      | some m' => exact ⟨m', rfl, hgood m' hm'⟩
      | none =>
        rw [← Option.some.inj ht, DiveO2System.takeFrame_received, hm] at hm'
        simp at hm'
    · have hkept := received_kept hstep fun now h => he ⟨now, h⟩
      exact absurd (hgood m (hkept.trans hm)) hbad

theorem diveO2Inv_boot (rate : ℕ) (stored : Option ℚ) (now : ℤ) :
    DiveO2Inv rate (diveo2Boot stored now) where
  coeff := diveo2LoadCal_valid stored
  mailbox := ⟨gathered_nil, gathered_nil, _, rfl⟩
  latest m r hm := absurd hm (by simp [diveo2Boot])
  converted p hp := by simp [diveo2Boot, BroadcastStage.precision?] at hp
  backed hok := absurd hok (by simp [diveo2Boot, diveo2Setup])

/-- In every run whose steps meet their conditions, a status published as good is carried by the
last measurement frame, and a faulty frame is made up for by a good one only. -/
theorem diveo2_status_sound (rate : ℕ) (stored : Option ℚ) (boot : ℤ) (es : List DiveO2Event)
    (hclean : Steps (diveo2Step rate) (fun s e _ => e.Clean rate s) (diveo2Boot stored boot) es) :
    Steps (diveo2Step rate) (StatusSound rate) (diveo2Boot stored boot) es := by
  have hkeep : ∀ {s e t}, DiveO2Inv rate s → e.Clean rate s → diveo2Step rate s e = some t →
      DiveO2Inv rate t ∧ StatusSound rate s e t := fun hi hc hstep =>
    ⟨hi.step hc hstep, hi.sound (hi.step hc hstep) hstep⟩
  exact Steps.of_inv hkeep (diveO2Inv_boot rate stored boot) hclean

/-! ## Two runs -/

/-- `#DOXY 210000 25000 0` and a carriage return. -/
def goodLine : List UInt8 :=
  ascii ['#', 'D', 'O', 'X', 'Y', ' ', '2', '1', '0', '0', '0', '0', ' ', '2', '5', '0', '0', '0',
    ' ', '0', '\r']

/-- The same with the code of a low intensity. -/
def faultyLine : List UInt8 :=
  ascii ['#', 'D', 'O', 'X', 'Y', ' ', '2', '1', '0', '0', '0', '0', ' ', '2', '5', '0', '0', '0',
    ' ', '2', '\r']

/-- A line is taken and broadcast, perhaps with something else on the way. -/
def taking (line : List UInt8) (others : List DiveO2Event) : List DiveO2Event :=
  .rxRdy line :: .frame 10010 :: (others ++ [DiveO2Event.checkAge 10020, .checkSupply 5, .convert])

/-- A good frame is published, reloaded over, and published again. -/
def reloadedOver : List DiveO2Event :=
  taking goodLine [] ++ DiveO2Event.publish 10030 ::
    (taking goodLine [.calDone (some 900000)] ++ [DiveO2Event.publish 10030])

theorem reloadedOver_sound :
    Steps (diveo2Step 10000) (fun s e _ => e.Clean 10000 s) (diveo2Boot (some 900000) 0)
        reloadedOver ∧
      Steps (diveo2Step 10000) (StatusSound 10000) (diveo2Boot (some 900000) 0) reloadedOver := by
  have hclean : Steps (diveo2Step 10000) (fun s e _ => e.Clean 10000 s)
      (diveo2Boot (some 900000) 0) reloadedOver := by decide +kernel
  exact ⟨hclean, diveo2_status_sound 10000 _ _ _ hclean⟩

/-- A calibration that ends right after a faulty frame has it published as good. -/
theorem reloadedFault_published :
    ¬ Steps (diveo2Step 10000) (StatusSound 10000) (diveo2Boot none 0)
      (taking faultyLine [.calDone (some 900000)] ++ [DiveO2Event.publish 10030]) := by
  intro h
  have hrun : (exec (diveo2Step 10000) (diveo2Boot none 0)
      (taking faultyLine [.calDone (some 900000)])).map
        (fun s => (s.stage, s.cell.status, s.received)) =
      some (.converted 10020 5 (7 / 30), .ok, some ⟨10010, some ⟨210000, 2⟩⟩) := by
    decide +kernel
  obtain ⟨s, hs, hview⟩ := Option.map_eq_some_iff.mp hrun
  obtain ⟨hstage, hview⟩ := Prod.mk.inj hview
  obtain ⟨hok, hreceived⟩ := Prod.mk.inj hview
  obtain ⟨t, ht⟩ : ∃ t, diveo2Step 10000 s (.publish 10030) = some t := by
    simp only [diveo2Step, hstage]
    exact ⟨_, rfl⟩
  have htok : t.channel.status = .ok := by
    simp only [diveo2Step, hstage] at ht
    rw [← Option.some.inj ht]
    exact hok
  obtain ⟨now, vbus, m, r, -, -, hm, hcarried⟩ := (h.last hs ht).published 10030 rfl htok
  rw [hreceived] at hm
  obtain rfl := Option.some.inj hm
  obtain rfl := Option.some.inj hcarried.wellFormed
  exact absurd hcarried.errCode (by decide)

end DiveCANHead.Cells
