import DiveCANHead.Broadcast.Frames
import DiveCANHead.Cells.Digital
import DiveCANHead.Lib.Rounding
import DiveCANHead.Lib.Runs

/-!
# Tank pressures, from the transducers to the handset

The sampler (`tank_pressure.c`) reads the transducers and publishes a message; the transmitter
(`divecan_ppo2_tx.c`) sends a frame for each cylinder of the last one, and nothing once it is three
seconds old. A tester asks for the same message by its DIDs (`uds_state_did.c`).
-/

namespace DiveCANHead.Broadcast

open DiveCANHead.Lib DiveCANHead.IsoTp DiveCANHead.Cells

/-! ## Millivolts to decibar (`tank_pressure_math.c`) -/

/-- The Kconfig symbols of a transducer: `MIN`, `MAX` and `LIMIT`, with their ranges. -/
structure Transducer where
  minMv : ℤ
  maxMv : ℤ
  limitBar : ℤ
  minRange : 0 ≤ minMv ∧ minMv ≤ 6144
  maxRange : 0 ≤ maxMv ∧ maxMv ≤ 6144
  limitRange : 1 ≤ limitBar ∧ limitBar ≤ 6000

/-- `tank_pressure_mv_to_decibar`; the divisions are C's. -/
def tankPressureMvToDecibar (millivolts minMv maxMv limitBar : ℤ) : UInt16 :=
  if minMv < maxMv ∧ minMv ≤ millivolts ∧ millivolts ≤ maxMv then
    let spanMv := maxMv - minMv
    let offsetMv := millivolts - minMv
    let decibar := (offsetMv * limitBar * 10 + spanMv.tdiv 2).tdiv spanMv
    if decibar < tankPressureFail.toNat then UInt16.ofInt decibar else tankPressureFail
  else tankPressureFail

/-- The pressure on the line through the ends of the range, in decibar. -/
def Transducer.line (t : Transducer) (millivolts : ℤ) : ℚ :=
  ((millivolts - t.minMv) * t.limitBar * 10 : ℤ) / (t.maxMv - t.minMv : ℤ)

/-- The pressure a voltage stands for: the nearest decibar, if the voltage is in the range and the
pressure below the failure. -/
def Transducer.pressure (t : Transducer) (millivolts : ℤ) : Option ℤ :=
  if (t.minMv < t.maxMv ∧ t.minMv ≤ millivolts ∧ millivolts ≤ t.maxMv) ∧
      roundAway (t.line millivolts) < tankPressureFail.toNat then
    some (roundAway (t.line millivolts))
  else none

/-- A word as a pressure. -/
def told (decibar : UInt16) : Option ℤ :=
  if decibar = tankPressureFail then none else some decibar.toNat

/-- The configured ranges keep the sum far from the limit of 64 bits. -/
theorem Transducer.sum_lt (t : Transducer) {millivolts : ℤ} (hlo : t.minMv ≤ millivolts)
    (hhi : millivolts ≤ t.maxMv) :
    (millivolts - t.minMv) * t.limitBar * 10 + (t.maxMv - t.minMv).tdiv 2 < 2 ^ 63 := by
  have hmin := t.minRange
  have hmax := t.maxRange
  have hlimit := t.limitRange
  have hprod : (millivolts - t.minMv) * t.limitBar ≤ 6144 * 6000 :=
    Int.mul_le_mul (by omega) hlimit.2 (by omega) (by omega)
  have hhalf : (t.maxMv - t.minMv).tdiv 2 ≤ t.maxMv - t.minMv := Int.tdiv_le_self _ (by omega)
  omega

theorem told_ofInt {d : ℤ} (h0 : 0 ≤ d) (hlt : d < tankPressureFail.toNat) :
    told (UInt16.ofInt d) = some d := by
  have hfail : tankPressureFail.toNat = 65535 := rfl
  have hword : (UInt16.ofInt d).toNat = d.toNat := by
    show (UInt16.ofNat (d % 2 ^ 16).toNat).toNat = d.toNat
    have hsize : (d % 2 ^ 16).toNat < UInt16.size := by
      show (d % 2 ^ 16).toNat < 65536
      omega
    rw [UInt16.toNat_ofNat_of_lt' hsize]
    omega
  have hne : UInt16.ofInt d ≠ tankPressureFail := fun heq => by
    rw [heq] at hword
    omega
  rw [told, if_neg hne, hword, Int.toNat_of_nonneg h0]

/-- The code's pressure is the nearest decibar. -/
theorem told_tankPressureMvToDecibar (t : Transducer) (millivolts : ℤ) :
    told (tankPressureMvToDecibar millivolts t.minMv t.maxMv t.limitBar) =
      t.pressure millivolts := by
  unfold tankPressureMvToDecibar Transducer.pressure
  by_cases hwindow : t.minMv < t.maxMv ∧ t.minMv ≤ millivolts ∧ millivolts ≤ t.maxMv
  · have hspan : 0 < t.maxMv - t.minMv := by omega
    have hsum : 0 ≤ (millivolts - t.minMv) * t.limitBar * 10 := by
      have hlimit := t.limitRange
      have := Int.mul_nonneg (a := millivolts - t.minMv) (b := t.limitBar) (by omega) (by omega)
      omega
    have hhalf : (t.maxMv - t.minMv).tdiv 2 = (t.maxMv - t.minMv) / 2 :=
      Int.tdiv_eq_ediv_of_nonneg (by omega)
    have hround : ((millivolts - t.minMv) * t.limitBar * 10 + (t.maxMv - t.minMv).tdiv 2).tdiv
        (t.maxMv - t.minMv) = roundAway (t.line millivolts) := by
      rw [hhalf, Int.tdiv_eq_ediv_of_nonneg (by omega)]
      exact (roundAway_intCast_div hsum hspan).symm
    have hnonneg : 0 ≤ roundAway (t.line millivolts) := by
      rw [← hround, hhalf]
      exact Int.tdiv_nonneg (by omega) hspan.le
    simp only [if_pos hwindow, hround]
    by_cases hlt : roundAway (t.line millivolts) < tankPressureFail.toNat
    · rw [if_pos hlt, if_pos ⟨hwindow, hlt⟩]
      exact told_ofInt hnonneg hlt
    · rw [if_neg hlt, if_neg fun h => hlt h.2]
      rfl
  · rw [if_neg hwindow, if_neg fun h => hwindow h.1]
    rfl

/-! ## The sampler (`tank_pressure.c`) -/

inductive Cylinder where
  | o2
  | dil
  deriving DecidableEq, Repr

def Cylinder.code : Cylinder → UInt8
  | .o2 => divecanTankO2
  | .dil => divecanTankDil

/-- The transducers of a build, none where the channel of a cylinder is -1, the tick rate and the
identity latched at boot. -/
structure TankBuild where
  o2 : Option Transducer
  dil : Option Transducer
  tickRate : ℕ
  devType : DiveCANType

def TankBuild.transducer (b : TankBuild) : Cylinder → Option Transducer
  | .o2 => b.o2
  | .dil => b.dil

/-- `TANK_PRESSURE_STALE_MS` in ticks. -/
def TankBuild.stale (b : TankBuild) : ℤ := kMsToTicksCeil64 b.tickRate 3000

/-- What a sample comes to: an error of the read or of the conversion to millivolts, or a
voltage. -/
inductive Reading where
  | failed
  | millivolts (mv : ℤ)
  deriving DecidableEq, Repr

/-- `transducer_sample`. -/
def transducerSample (t : Transducer) (ready : Bool) (reading : Reading) : UInt16 :=
  if ready = true then
    match reading with
    | .failed => tankPressureFail
    | .millivolts mv => tankPressureMvToDecibar mv t.minMv t.maxMv t.limitBar
  else tankPressureFail

/-- `TankPressureMsg_t`. -/
structure TankPressureMsg where
  o2Decibar : UInt16
  dilDecibar : UInt16
  timestampTicks : ℤ
  deriving DecidableEq, Repr

def TankPressureMsg.decibar (msg : TankPressureMsg) : Cylinder → UInt16
  | .o2 => msg.o2Decibar
  | .dil => msg.dilDecibar

/-- A pass of the sampler: what its samples came to, and the uptime after them. -/
structure Pass where
  reading : Cylinder → Reading
  stamp : ℤ

/-- The message of a pass; `ready` is what `transducer_init` has left. -/
def Pass.msg (b : TankBuild) (ready : Cylinder → Bool) (p : Pass) : TankPressureMsg where
  o2Decibar := (b.o2.map fun t => transducerSample t (ready .o2) (p.reading .o2)).getD
    tankPressureFail
  dilDecibar := (b.dil.map fun t => transducerSample t (ready .dil) (p.reading .dil)).getD
    tankPressureFail
  timestampTicks := p.stamp

/-! ## The readers -/

/-- One cylinder of `tx_tank_pressures`. -/
def txCylinder (b : TankBuild) (msg : TankPressureMsg) (c : Cylinder) : List DiveCANMessage :=
  if (b.transducer c).isSome = true ∧ tankPressureFail ≠ msg.decibar c then
    txTankPressure b.devType c.code (msg.decibar c)
  else []

/-- `tx_tank_pressures`. -/
def txTankPressures (b : TankBuild) (chan : TankPressureMsg) (ok : Bool) (now : ℤ) :
    List DiveCANMessage :=
  if ok = false ∨ now - chan.timestampTicks > b.stale then []
  else txCylinder b chan .o2 ++ txCylinder b chan .dil

/-- `buildO2CylPressureStatus` and `buildDilCylPressureStatus`: the low byte first. -/
def buildCylPressureStatus (chan : TankPressureMsg) (c : Cylinder) (ok : Bool) :
    Option (List UInt8) :=
  if ok = true then some (bigEndian (chan.decibar c)).reverse else none

/-! ## The threads together -/

/-- The channel, the pass that is not published yet, the bus and what the tester was answered;
`published` is history: the last pass that was published. -/
structure TankState where
  now : ℤ
  chan : TankPressureMsg
  pending : Option Pass
  bus : List DiveCANMessage
  answers : List (Option (List UInt8))
  published : Option Pass

/-- `chan_tank_pressure` as it is defined. -/
def TankState.boot (now : ℤ) : TankState where
  now := now
  chan := ⟨tankPressureFail, tankPressureFail, 0⟩
  pending := none
  bus := []
  answers := []
  published := none

/-- Time passes; the sampler samples, or publishes; the transmitter takes a turn; a DID is read. A
Boolean says whether a channel operation was in time. -/
inductive TankEvent where
  | tick (ticks : ℕ)
  | sample (reading : Cylinder → Reading)
  | publish (ok : Bool)
  | transmit (ok : Bool)
  | readDid (c : Cylinder) (ok : Bool)

def tankStep (b : TankBuild) (ready : Cylinder → Bool) (s : TankState) :
    TankEvent → Option TankState
  | .tick ticks => some { s with now := s.now + ticks }
  | .sample reading =>
    if s.pending = none then some { s with pending := some ⟨reading, s.now⟩ } else none
  | .publish ok => s.pending.map fun p =>
    let s := { s with pending := none }
    if ok = true then { s with chan := p.msg b ready, published := some p } else s
  | .transmit ok => some { s with bus := s.bus ++ txTankPressures b s.chan ok s.now }
  | .readDid c ok =>
    if (b.transducer c).isSome = true then
      some { s with answers := s.answers ++ [buildCylPressureStatus s.chan c ok] }
    else none

/-! ## What is read -/

/-- A tank pressure frame of a head, as a handset reads it. -/
def readTank (deviceType : DiveCANType) (m : DiveCANMessage) : Option (Cylinder × ℤ) :=
  if m.id = tankPressureId ||| deviceType.code ∧ m.length = 3 then
    if m.byte 0 = divecanTankO2 then some (.o2, word m 1)
    else if m.byte 0 = divecanTankDil then some (.dil, word m 1)
    else none
  else none

def Reading.pressure (t : Transducer) : Reading → Option ℤ
  | .failed => none
  | .millivolts mv => t.pressure mv

/-- The pressure of a cylinder in a pass, where its transducer was read. -/
def Pass.pressure (b : TankBuild) (ready : Cylinder → Bool) (p : Pass) (c : Cylinder) : Option ℤ :=
  (b.transducer c).bind fun t => if ready c = true then (p.reading c).pressure t else none

/-- What a turn has to say: nothing before the first pass, after an unreadable channel or of a pass
that is more than three seconds old; else the pressure of each cylinder that has one. -/
def TankState.due (b : TankBuild) (ready : Cylinder → Bool) (s : TankState) (ok : Bool) :
    List (Cylinder × ℤ) :=
  match s.published with
  | none => []
  | some p =>
    if ok = true ∧ s.now - p.stamp ≤ b.stale then
      [Cylinder.o2, Cylinder.dil].filterMap fun c => (p.pressure b ready c).map (c, ·)
    else []

/-- The frames of a turn say what it has to say, each in a frame of its own. A DID is answered by
the pressure in the last pass, however old it is. Nothing else is sent. -/
def TankTurn (b : TankBuild) (ready : Cylinder → Bool) (s : TankState) (e : TankEvent)
    (t : TankState) : Prop :=
  match e with
  | .transmit ok => t.answers = s.answers ∧ ∃ frames, t.bus = s.bus ++ frames ∧
      frames.map (readTank b.devType) = (s.due b ready ok).map some
  | .readDid c ok => t.bus = s.bus ∧ ∃ answer, t.answers = s.answers ++ [answer] ∧
      (answer.isSome ↔ ok = true) ∧ ∀ bytes, answer = some bytes → ∃ word : UInt16,
        bytes = [word.toUInt8, (word >>> 8).toUInt8] ∧
        told word = s.published.bind fun p => p.pressure b ready c
  | _ => t.bus = s.bus ∧ t.answers = s.answers

section Runs

variable {b : TankBuild} {ready : Cylinder → Bool} {s t : TankState} {c : Cylinder}

theorem told_transducerSample (t : Transducer) (ready : Bool) (reading : Reading) :
    told (transducerSample t ready reading) =
      if ready = true then reading.pressure t else none := by
  unfold transducerSample
  split_ifs
  · cases reading with
    | failed => rfl
    | millivolts mv => exact told_tankPressureMvToDecibar t mv
  · rfl

/-- The message of a pass has the pressures of the pass. -/
theorem told_msg (p : Pass) (c : Cylinder) :
    told ((p.msg b ready).decibar c) = p.pressure b ready c := by
  have hnone : told tankPressureFail = none := rfl
  have hcylinder : ∀ (o : Option Transducer) (ready : Bool) (reading : Reading),
      told ((o.map fun t => transducerSample t ready reading).getD tankPressureFail) =
        o.bind fun t => if ready = true then reading.pressure t else none := by
    intro o ready reading
    cases o with
    | none => exact hnone
    | some t => exact told_transducerSample t ready reading
  cases c with
  | o2 => exact hcylinder b.o2 (ready .o2) (p.reading .o2)
  | dil => exact hcylinder b.dil (ready .dil) (p.reading .dil)

/-- A frame is read as what was put into it. -/
theorem readTank_txTankPressure (c : Cylinder) (decibar : UInt16) :
    (txTankPressure b.devType c.code decibar).map (readTank b.devType) =
      ((told decibar).map fun d => some (c, d)).toList := by
  unfold txTankPressure told
  by_cases hfail : tankPressureFail = decibar
  · rw [if_pos hfail, if_pos hfail.symm]
    rfl
  · rw [if_neg hfail, if_neg (Ne.symm hfail), List.map_singleton, readTank, if_pos ⟨rfl, rfl⟩]
    have hword : ((256 * (decibar >>> 8).toUInt8.toNat + decibar.toUInt8.toNat : ℕ) : ℤ) =
      decibar.toNat := congrArg Nat.cast (word_bigEndian decibar)
    cases c with
    | o2 => exact congrArg (fun d : ℤ => [some (Cylinder.o2, d)]) hword
    | dil => exact congrArg (fun d : ℤ => [some (Cylinder.dil, d)]) hword

theorem readTank_txCylinder (msg : TankPressureMsg)
    (hsome : (told (msg.decibar c)).isSome → (b.transducer c).isSome = true) :
    (txCylinder b msg c).map (readTank b.devType) =
      ((told (msg.decibar c)).map fun d => some (c, d)).toList := by
  have hframe := readTank_txTankPressure (b := b) c (msg.decibar c)
  unfold txCylinder
  split_ifs with h
  · exact hframe
  · have hnone : told (msg.decibar c) = none := by
      by_contra htold
      have hread := Option.isSome_iff_ne_none.mpr htold
      apply h
      refine ⟨hsome hread, fun heq => ?_⟩
      rw [told, if_pos heq.symm] at hread
      exact absurd hread (by decide)
    rw [hnone]
    rfl

/-- The channel holds the message of the last pass that was published. -/
def TankState.Kept (b : TankBuild) (ready : Cylinder → Bool) (s : TankState) : Prop :=
  s.chan = (s.published.map (Pass.msg b ready)).getD ⟨tankPressureFail, tankPressureFail, 0⟩

theorem TankState.Kept.told (h : s.Kept b ready) (c : Cylinder) :
    told (s.chan.decibar c) = s.published.bind fun p => p.pressure b ready c := by
  rw [h]
  cases s.published with
  | none =>
    cases c with
    | o2 | dil => rfl
  | some p => exact told_msg p c

/-- Only a cylinder with a transducer has a pressure. -/
theorem isSome_transducer {p : Pass} (h : (p.pressure b ready c).isSome) :
    (b.transducer c).isSome = true := by
  unfold Pass.pressure at h
  cases htr : b.transducer c with
  | none =>
    rw [htr] at h
    exact absurd h Bool.false_ne_true
  | some t => rfl

/-- The frames of a turn. -/
theorem TankState.Kept.frames (h : s.Kept b ready) (ok : Bool) :
    (txTankPressures b s.chan ok s.now).map (readTank b.devType) = (s.due b ready ok).map some := by
  have hread : ∀ c, (txCylinder b s.chan c).map (readTank b.devType) =
      ((s.published.bind fun p => p.pressure b ready c).map fun d => some (c, d)).toList := by
    intro c
    rw [← h.told c]
    apply readTank_txCylinder
    intro hsome
    rw [h.told c] at hsome
    cases hp : s.published with
    | none =>
      rw [hp] at hsome
      exact absurd hsome Bool.false_ne_true
    | some p =>
      rw [hp] at hsome
      exact isSome_transducer hsome
  have hboth : (txCylinder b s.chan .o2 ++ txCylinder b s.chan .dil).map (readTank b.devType) =
      ((s.published.bind fun p => p.pressure b ready .o2).map fun d =>
          some (Cylinder.o2, d)).toList ++
        ((s.published.bind fun p => p.pressure b ready .dil).map fun d =>
          some (Cylinder.dil, d)).toList := by
    rw [List.map_append, hread, hread]
  unfold txTankPressures TankState.due
  cases hp : s.published with
  | none =>
    rw [hp] at hboth
    split_ifs
    · rfl
    · exact hboth
  | some p =>
    have hstamp : s.chan.timestampTicks = p.stamp := by
      rw [h, hp]
      rfl
    rw [hp] at hboth
    simp only [hstamp]
    by_cases hdue : ok = true ∧ s.now - p.stamp ≤ b.stale
    · have hsend : ¬(ok = false ∨ s.now - p.stamp > b.stale) := by
        rintro (hok | hage)
        · exact Bool.false_ne_true (hok.symm.trans hdue.1)
        · omega
      rw [if_neg hsend, if_pos hdue, hboth]
      show Option.toList ((p.pressure b ready .o2).map _) ++
        Option.toList ((p.pressure b ready .dil).map _) = _
      cases ho : p.pressure b ready .o2 <;> cases hd : p.pressure b ready .dil <;> simp [ho, hd]
    · have hnone : ok = false ∨ s.now - p.stamp > b.stale := by
        by_contra hnot
        apply hdue
        rw [not_or, Bool.not_eq_false] at hnot
        exact ⟨hnot.1, by omega⟩
      rw [if_pos hnone, if_neg hdue]
      rfl

theorem TankState.Kept.step {e : TankEvent} (h : s.Kept b ready)
    (ht : tankStep b ready s e = some t) : t.Kept b ready ∧ TankTurn b ready s e t := by
  cases e with
  | tick ticks =>
    obtain rfl := Option.some.inj ht
    exact ⟨h, rfl, rfl⟩
  | sample reading =>
    obtain ⟨-, ht⟩ := Option.ite_none_right_eq_some.mp ht
    obtain rfl := Option.some.inj ht
    exact ⟨h, rfl, rfl⟩
  | publish ok =>
    obtain ⟨p, -, rfl⟩ := Option.map_eq_some_iff.mp ht
    cases ok with
    | false => exact ⟨h, rfl, rfl⟩
    | true => exact ⟨rfl, rfl, rfl⟩
  | transmit ok =>
    obtain rfl := Option.some.inj ht
    exact ⟨h, rfl, _, rfl, h.frames ok⟩
  | readDid c ok =>
    obtain ⟨-, ht⟩ := Option.ite_none_right_eq_some.mp ht
    obtain rfl := Option.some.inj ht
    refine ⟨h, rfl, _, rfl, ?_, fun bytes hbytes => ⟨s.chan.decibar c, ?_, h.told c⟩⟩
    · cases ok with
      | false => exact iff_of_false Bool.false_ne_true Bool.false_ne_true
      | true => exact iff_of_true rfl rfl
    · obtain ⟨-, hbytes⟩ := Option.ite_none_right_eq_some.mp hbytes
      exact (Option.some.inj hbytes).symm

end Runs

/-- Whatever the transducers and the channel do, and however slow the sampler is, every pressure
that is sent is the nearest decibar to what a transducer read in a pass of the last three
seconds. -/
theorem tankPressures_true (b : TankBuild) (ready : Cylinder → Bool) (now : ℤ)
    (es : List TankEvent) : Steps (tankStep b ready) (TankTurn b ready) (.boot now) es := by
  have hstep : ∀ {s : TankState} {e : TankEvent} {t : TankState}, s.Kept b ready → True →
      tankStep b ready s e = some t → t.Kept b ready ∧ TankTurn b ready s e t :=
    fun h _ ht => h.step ht
  exact Steps.of_inv hstep rfl (Steps.of_mem fun _ _ => trivial)

end DiveCANHead.Broadcast
