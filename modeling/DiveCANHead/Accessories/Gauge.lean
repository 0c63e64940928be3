import Mathlib.Data.Nat.Bitwise
import Mathlib.Data.Int.Notation
import DiveCANHead.Lib.Runs

/-!
# The battery's gauge (`poseidon_accessories.c`)

The battery broadcasts its charge and its current, and answers reads of one register byte. The head
takes the frames as an I2C target: a broadcast brings both bytes of the current at once, a reply
only the one that was asked for, which goes together with what the other one last was.
-/

namespace DiveCANHead.Accessories

open DiveCANHead.Lib

/-! ## Words of two bytes -/

/-- Two bytes as a signed word, the high one first. -/
def wordOf (hi lo : UInt8) : Int16 := ((hi.toUInt16 <<< 8) ||| lo.toUInt16).toInt16

def hiByte (w : Int16) : UInt8 := (w.toUInt16 >>> 8).toUInt8

def loByte (w : Int16) : UInt8 := w.toUInt16.toUInt8

theorem toNat_wordOf (hi lo : UInt8) :
    (wordOf hi lo).toUInt16.toNat = 256 * hi.toNat + lo.toNat := by
  have hhi : hi.toNat < 256 := hi.toNat_lt
  have hlo : lo.toNat < 2 ^ 8 := lo.toNat_lt
  have hshift : (hi.toUInt16 <<< 8).toNat = 2 ^ 8 * hi.toNat := by
    rw [UInt16.toNat_shiftLeft, UInt8.toNat_toUInt16, show UInt16.toNat 8 % 16 = 8 from rfl,
      Nat.shiftLeft_eq]
    omega
  rw [wordOf, UInt16.toUInt16_toInt16, UInt16.toNat_or, hshift, UInt8.toNat_toUInt16,
    ← Nat.two_pow_add_eq_or_of_lt hlo]

theorem toNat_hiByte (w : Int16) : (hiByte w).toNat = w.toUInt16.toNat / 256 := by
  have hw : w.toUInt16.toNat < 65536 := w.toUInt16.toNat_lt
  rw [hiByte, UInt16.toNat_toUInt8, UInt16.toNat_shiftRight, show UInt16.toNat 8 % 16 = 8 from rfl,
    Nat.shiftRight_eq_div_pow]
  omega

theorem toNat_loByte (w : Int16) : (loByte w).toNat = w.toUInt16.toNat % 256 := by
  rw [loByte, UInt16.toNat_toUInt8]

theorem hiByte_wordOf (hi lo : UInt8) : hiByte (wordOf hi lo) = hi := by
  rw [← UInt8.toNat_inj, toNat_hiByte, toNat_wordOf]
  have hlo : lo.toNat < 256 := lo.toNat_lt
  omega

theorem loByte_wordOf (hi lo : UInt8) : loByte (wordOf hi lo) = lo := by
  rw [← UInt8.toNat_inj, toNat_loByte, toNat_wordOf]
  have hlo : lo.toNat < 256 := lo.toNat_lt
  omega

theorem wordOf_bytes (w : Int16) : wordOf (hiByte w) (loByte w) = w := by
  have hnat : (wordOf (hiByte w) (loByte w)).toUInt16.toNat = w.toUInt16.toNat := by
    rw [toNat_wordOf, toNat_hiByte, toNat_loByte, Nat.div_add_mod]
  rw [← Int16.toInt16_toUInt16 w]
  exact congrArg _ (UInt16.toNat_inj.mp hnat)

/-! ## Frames -/

/-- `crc8` of Zephyr, with this polynomial and from 0, most significant bit first. -/
def poseidonCrc8 (p : List UInt8) : UInt8 :=
  let shift := fun crc : UInt8 => if crc &&& 0x80 ≠ 0 then (crc <<< 1) ^^^ 0x07 else crc <<< 1
  p.foldl (fun crc b => shift^[8] (crc ^^^ b)) 0

/-- `DISPLAY_ADDR << 1`. -/
def displaySla : UInt8 := 0x82

def poseidonCmdPercent : UInt8 := 0x26
def poseidonCmdCurrent : UInt8 := 0x06
def poseidonCmdDs2782Reply : UInt8 := 0x5B
def poseidonSubcmdPercent : UInt8 := 0x02
def poseidonLenCurrent : UInt8 := 0x03
def poseidonPercentMax : UInt8 := 100
def ds2782RegCurrent : UInt8 := 0x0E
def ds2782RegCurrentLsb : UInt8 := 0x0F

/-- Which frame a current came with. -/
inductive CurrentSource where
  | broadcast
  | reply
  deriving DecidableEq, Repr

/-- The gauge's part of the file's state. -/
structure Gauge where
  percent : UInt8 := 0
  percentAt : ℕ := 0
  percentSeen : Bool := false
  currentCounts : Int16 := 0
  currentMsb : UInt8 := 0
  currentLsb : UInt8 := 0
  currentAt : ℕ := 0
  currentSeen : Bool := false
  currentSource : Option CurrentSource := none
  deriving DecidableEq, Repr

/-- `record_current_counts`. -/
def Gauge.recordCounts (g : Gauge) (now : ℕ) (counts : Int16) : Gauge :=
  { g with
    currentCounts := counts
    currentMsb := hiByte counts
    currentLsb := loByte counts
    currentAt := now
    currentSeen := true
    currentSource := some .broadcast }

/-- `record_current_byte`. -/
def Gauge.recordByte (g : Gauge) (now : ℕ) (reg value : UInt8) : Gauge :=
  let msb := if reg = ds2782RegCurrent then value else g.currentMsb
  let lsb := if reg = ds2782RegCurrent then g.currentLsb else value
  { g with
    currentCounts := wordOf msb lsb
    currentMsb := msb
    currentLsb := lsb
    currentAt := now
    currentSeen := true
    currentSource := some .reply }

/-- What a frame says, if it says anything. -/
inductive GaugeFrame where
  | percent (value : UInt8)
  | current (counts : Int16)
  | register (reg value : UInt8)
  deriving DecidableEq, Repr

/-- The checks of `target_stop` on the received bytes, at most as many as the buffer holds. An
address byte that was received with them is skipped. -/
def parseFrame (bytes : List UInt8) : Option GaugeFrame :=
  let rx := bytes.take 9
  let frame := if 5 ≤ rx.length ∧ rx.head? = some displaySla then rx.tail else rx
  match frame with
  | [cmd, sub, value, crc] =>
    if cmd = poseidonCmdPercent ∧ sub = poseidonSubcmdPercent ∧ value ≤ poseidonPercentMax ∧
        poseidonCrc8 [displaySla, cmd, sub, value] = crc then some (.percent value)
    else none
  | [cmd, len, data0, data1, crc] =>
    if len = poseidonLenCurrent ∧ poseidonCrc8 [displaySla, cmd, len, data0, data1] = crc then
      if cmd = poseidonCmdCurrent then some (.current (wordOf data1 data0))
      else if cmd = poseidonCmdDs2782Reply ∧
          (data1 = ds2782RegCurrent ∨ data1 = ds2782RegCurrentLsb) then
        some (.register data1 data0)
      else none
    else none
  | _ => none

/-- `target_stop`. -/
def targetStop (g : Gauge) (now : ℕ) (bytes : List UInt8) : Gauge :=
  match parseFrame bytes with
  | some (.percent value) => { g with percent := value, percentAt := now, percentSeen := true }
  | some (.current counts) => g.recordCounts now counts
  | some (.register reg value) => g.recordByte now reg value
  | none => g

/-! ## The battery -/

/-- A frame of the battery's about the current, with the instant at which it read the register. -/
inductive BatteryFrame where
  | broadcast (instant : ℕ)
  | reply (reg : UInt8) (instant : ℕ)
  deriving DecidableEq, Repr

/-- A frame's bytes before their CRC. -/
def BatteryFrame.payload (register : ℕ → Int16) : BatteryFrame → List UInt8
  | .broadcast t =>
    [poseidonCmdCurrent, poseidonLenCurrent, loByte (register t), hiByte (register t)]
  | .reply reg t =>
    [poseidonCmdDs2782Reply, poseidonLenCurrent,
      if reg = ds2782RegCurrent then hiByte (register t) else loByte (register t), reg]

/-- A frame on the wire, with the address byte or without. -/
def BatteryFrame.bytes (register : ℕ → Int16) (f : BatteryFrame) (echoed : Bool) : List UInt8 :=
  (if echoed = true then [displaySla] else []) ++
    (f.payload register ++ [poseidonCrc8 (displaySla :: f.payload register)])

theorem parseFrame_broadcast (register : ℕ → Int16) (t : ℕ) (echoed : Bool) :
    parseFrame ((BatteryFrame.broadcast t).bytes register echoed) =
      some (.current (register t)) := by
  cases echoed <;>
    simp [parseFrame, BatteryFrame.bytes, BatteryFrame.payload, displaySla, poseidonCmdCurrent,
      wordOf_bytes]

theorem parseFrame_reply (register : ℕ → Int16) {reg : UInt8}
    (hreg : reg = ds2782RegCurrent ∨ reg = ds2782RegCurrentLsb) (t : ℕ) (echoed : Bool) :
    parseFrame ((BatteryFrame.reply reg t).bytes register echoed) =
      some (.register reg
        (if reg = ds2782RegCurrent then hiByte (register t) else loByte (register t))) := by
  cases echoed <;>
    simp [parseFrame, BatteryFrame.bytes, BatteryFrame.payload, displaySla, poseidonCmdCurrent,
      poseidonCmdDs2782Reply, hreg]

/-! ## The head and the battery -/

/-- `CURRENT_SOLICIT_STALE_MS`. -/
def currentSolicitStaleMs : ℕ := 500

/-- `CURRENT_SOLICIT_BACKOFF_MS`. -/
def currentSolicitBackoffMs : ℕ := 5000

/-- The clock, the head with the statics of `solicit_current`, the reads it has asked for and the
battery's frames, which may arrive at any time, in any order, again or never. For the statements
only: the instants that the halves of the current are from. -/
structure GaugeSystem where
  clock : ℕ := 0
  gauge : Gauge := {}
  lastSolicit : ℕ := 0
  lastSolicitFailed : Bool := false
  solicitReg : UInt8 := ds2782RegCurrent
  requests : List UInt8 := []
  frames : List BatteryFrame := []
  msbFrom : Option ℕ := none
  lsbFrom : Option ℕ := none
  deriving DecidableEq

/-- The battery broadcasts or answers a request; the head asks for a byte before a fire or because
the current is stale, and takes a frame of the battery's, or any other one. -/
inductive GaugeEvent where
  | tick (ms : ℕ)
  | broadcast
  | answer (request : ℕ)
  | trigger (sent : Bool)
  | solicit (rc : ℤ)
  | deliver (frame : ℕ) (echoed : Bool)
  | other (bytes : List UInt8)
  deriving DecidableEq, Repr

/-- `poseidon_current_trigger`. -/
def GaugeSystem.trigger (s : GaugeSystem) (sent : Bool) : GaugeSystem :=
  if sent = true then { s with requests := s.requests ++ [ds2782RegCurrent] } else s

/-- `solicit_current`. -/
def GaugeSystem.solicit (s : GaugeSystem) (rc : ℤ) : GaugeSystem :=
  let stale := s.gauge.currentSeen = false ∨ currentSolicitStaleMs < s.clock - s.gauge.currentAt
  let interval :=
    if s.lastSolicitFailed = true then currentSolicitBackoffMs else currentSolicitStaleMs
  if stale ∧ interval ≤ s.clock - s.lastSolicit then
    if rc = 0 then
      { s with
        lastSolicit := s.clock
        lastSolicitFailed := false
        requests := s.requests ++ [s.solicitReg]
        solicitReg := if s.solicitReg = ds2782RegCurrent then ds2782RegCurrentLsb
          else ds2782RegCurrent }
    else { s with lastSolicit := s.clock, lastSolicitFailed := true }
  else s

/-- A frame of the battery's arrives. -/
def GaugeSystem.deliver (register : ℕ → Int16) (s : GaugeSystem) (f : BatteryFrame)
    (echoed : Bool) : GaugeSystem :=
  let s := { s with gauge := targetStop s.gauge s.clock (f.bytes register echoed) }
  match f with
  | .broadcast t => { s with msbFrom := some t, lsbFrom := some t }
  | .reply reg t =>
    if reg = ds2782RegCurrent then { s with msbFrom := some t } else { s with lsbFrom := some t }

/-- Whether a frame brings a current. -/
def bringsCurrent (bytes : List UInt8) : Bool :=
  match parseFrame bytes with
  | some (.current _) => true
  | some (.register _ _) => true
  | _ => false

/-- A step, where the register holds `register t` at the instant `t`. -/
def gaugeStep (register : ℕ → Int16) (s : GaugeSystem) : GaugeEvent → Option GaugeSystem
  | .tick ms => some { s with clock := s.clock + ms }
  | .broadcast => some { s with frames := s.frames ++ [.broadcast s.clock] }
  | .answer request =>
    s.requests[request]?.map fun reg => { s with frames := s.frames ++ [.reply reg s.clock] }
  | .trigger sent => some (s.trigger sent)
  | .solicit rc => some (s.solicit rc)
  | .deliver frame echoed => s.frames[frame]?.map fun f => s.deliver register f echoed
  | .other bytes =>
    if bringsCurrent bytes = true then none
    else some { s with gauge := targetStop s.gauge s.clock bytes }

/-! ## Where the current is from -/

/-- A half of what the register held at the instant, or 0. -/
def halfFrom (half : Int16 → UInt8) (register : ℕ → Int16) : Option ℕ → UInt8
  | some t => half (register t)
  | none => 0

/-- Each half of the count is what the register held at an instant of its own, or 0 where no frame
has brought it yet; the whole is what it held at one instant if it came in a broadcast, or if one
half was the same at both. -/
def CurrentLaw (register : ℕ → Int16) (s : GaugeSystem) : Prop :=
  s.gauge.currentSeen = true →
    hiByte s.gauge.currentCounts = halfFrom hiByte register s.msbFrom ∧
    loByte s.gauge.currentCounts = halfFrom loByte register s.lsbFrom ∧
    (∀ t ∈ s.msbFrom, t ≤ s.clock) ∧ (∀ t ∈ s.lsbFrom, t ≤ s.clock) ∧
    (s.gauge.currentSource = some .broadcast → ∃ t ≤ s.clock,
      s.gauge.currentCounts = register t) ∧
    ∀ a ∈ s.msbFrom, ∀ b ∈ s.lsbFrom, hiByte (register a) = hiByte (register b) ∨
      loByte (register a) = loByte (register b) → ∃ t ≤ s.clock, s.gauge.currentCounts = register t

/-- The registers that the head asks for. -/
def IsHalf (reg : UInt8) : Prop := reg = ds2782RegCurrent ∨ reg = ds2782RegCurrentLsb

/-- A frame that the battery has sent by now. -/
def BatteryFrame.Sent (clock : ℕ) : BatteryFrame → Prop
  | .broadcast t => t ≤ clock
  | .reply reg t => IsHalf reg ∧ t ≤ clock

structure GaugeSystem.Inv (register : ℕ → Int16) (s : GaugeSystem) : Prop where
  requests : ∀ reg ∈ s.requests, IsHalf reg
  solicitReg : IsHalf s.solicitReg
  frames : ∀ f ∈ s.frames, f.Sent s.clock
  msb : s.gauge.currentMsb = halfFrom hiByte register s.msbFrom
  lsb : s.gauge.currentLsb = halfFrom loByte register s.lsbFrom
  msbFrom : ∀ t ∈ s.msbFrom, t ≤ s.clock
  lsbFrom : ∀ t ∈ s.lsbFrom, t ≤ s.clock
  counts : s.gauge.currentSeen = true →
    s.gauge.currentCounts = wordOf s.gauge.currentMsb s.gauge.currentLsb
  whole : s.gauge.currentSource = some .broadcast → ∃ t, s.msbFrom = some t ∧ s.lsbFrom = some t

section Steps

variable {register : ℕ → Int16} {s t : GaugeSystem}

theorem BatteryFrame.Sent.mono {f : BatteryFrame} {a b : ℕ} (h : f.Sent a) (hab : a ≤ b) :
    f.Sent b := by
  cases f with
  | broadcast t => exact Nat.le_trans h hab
  | reply reg t => exact ⟨h.1, Nat.le_trans h.2 hab⟩

theorem GaugeSystem.init_inv (register : ℕ → Int16) : GaugeSystem.Inv register {} where
  requests _ h := absurd h List.not_mem_nil
  solicitReg := .inl rfl
  frames _ h := absurd h List.not_mem_nil
  msb := rfl
  lsb := rfl
  msbFrom _ h := absurd h (Option.not_mem_none _)
  lsbFrom _ h := absurd h (Option.not_mem_none _)
  counts h := absurd h (by decide)
  whole h := absurd h (by decide)

theorem GaugeSystem.Inv.law (hi : s.Inv register) : CurrentLaw register s := by
  intro hseen
  have hcounts := hi.counts hseen
  have hhi : hiByte s.gauge.currentCounts = halfFrom hiByte register s.msbFrom := by
    rw [hcounts, hiByte_wordOf, hi.msb]
  have hlo : loByte s.gauge.currentCounts = halfFrom loByte register s.lsbFrom := by
    rw [hcounts, loByte_wordOf, hi.lsb]
  have hword : ∀ t : ℕ, hiByte s.gauge.currentCounts = hiByte (register t) →
      loByte s.gauge.currentCounts = loByte (register t) →
        s.gauge.currentCounts = register t := by
    intro t h h'
    rw [← wordOf_bytes s.gauge.currentCounts, h, h', wordOf_bytes]
  refine ⟨hhi, hlo, hi.msbFrom, hi.lsbFrom, fun hsource => ?_, fun a ha b hb hsame => ?_⟩
  · obtain ⟨t, hmsb, hlsb⟩ := hi.whole hsource
    rw [hmsb] at hhi
    rw [hlsb] at hlo
    exact ⟨t, hi.msbFrom t hmsb, hword t hhi hlo⟩
  · rw [show s.msbFrom = some a from ha] at hhi
    rw [show s.lsbFrom = some b from hb] at hlo
    rcases hsame with hsame | hsame
    · exact ⟨b, hi.lsbFrom b hb, hword b (hhi.trans hsame) hlo⟩
    · exact ⟨a, hi.msbFrom a ha, hword a hhi (hlo.trans hsame.symm)⟩

/-- A frame that brings no current leaves it as it was. -/
theorem GaugeSystem.Inv.other (hi : s.Inv register) {bytes : List UInt8}
    (h : bringsCurrent bytes ≠ true) :
    GaugeSystem.Inv register { s with gauge := targetStop s.gauge s.clock bytes } := by
  unfold bringsCurrent at h
  unfold targetStop
  cases hparse : parseFrame bytes with
  | none => exact hi
  | some f =>
    cases f with
    | percent value =>
      exact ⟨hi.requests, hi.solicitReg, hi.frames, hi.msb, hi.lsb, hi.msbFrom, hi.lsbFrom,
        hi.counts, hi.whole⟩
    | current counts => exact absurd (by rw [hparse]) h
    | register reg value => exact absurd (by rw [hparse]) h

theorem GaugeSystem.Inv.deliver (hi : s.Inv register) {f : BatteryFrame}
    (hf : f.Sent s.clock) (echoed : Bool) : (s.deliver register f echoed).Inv register := by
  cases f with
  | broadcast t =>
    have hsent : ∀ u ∈ some t, u ≤ s.clock := fun u hu => Option.some.inj hu ▸ hf
    simp only [GaugeSystem.deliver, targetStop, parseFrame_broadcast, Gauge.recordCounts]
    exact ⟨hi.requests, hi.solicitReg, hi.frames, rfl, rfl, hsent, hsent,
      fun _ => (wordOf_bytes (register t)).symm, fun _ => ⟨t, rfl, rfl⟩⟩
  | reply reg t =>
    obtain ⟨hreg, ht⟩ := hf
    have hsent : ∀ u ∈ some t, u ≤ s.clock := fun u hu => Option.some.inj hu ▸ ht
    have hsource : ∀ {P : Prop}, some CurrentSource.reply = some .broadcast → P := fun h =>
      absurd h (by decide)
    simp only [GaugeSystem.deliver, targetStop, parseFrame_reply register hreg, Gauge.recordByte]
    by_cases hmsb : reg = ds2782RegCurrent
    · simp only [if_pos hmsb]
      exact ⟨hi.requests, hi.solicitReg, hi.frames, rfl, hi.lsb, hsent, hi.lsbFrom,
        fun _ => rfl, hsource⟩
    · simp only [if_neg hmsb]
      exact ⟨hi.requests, hi.solicitReg, hi.frames, hi.msb, rfl, hi.msbFrom, hsent,
        fun _ => rfl, hsource⟩

theorem GaugeSystem.Inv.solicit (hi : s.Inv register) (rc : ℤ) :
    (s.solicit rc).Inv register := by
  unfold GaugeSystem.solicit
  dsimp only
  generalize (if s.lastSolicitFailed = true then currentSolicitBackoffMs
    else currentSolicitStaleMs) = interval
  split
  · split
    · refine ⟨fun reg hreg => ?_, ?_, hi.frames, hi.msb, hi.lsb, hi.msbFrom, hi.lsbFrom,
        hi.counts, hi.whole⟩
      · rcases List.mem_append.mp hreg with hreg | hreg
        · exact hi.requests reg hreg
        · exact List.mem_singleton.mp hreg ▸ hi.solicitReg
      · dsimp only
        split
        · exact .inr rfl
        · exact .inl rfl
    · exact ⟨hi.requests, hi.solicitReg, hi.frames, hi.msb, hi.lsb, hi.msbFrom, hi.lsbFrom,
        hi.counts, hi.whole⟩
  · exact hi

/-- The battery's frames, with one more of this instant. -/
theorem GaugeSystem.Inv.send (hi : s.Inv register) {f : BatteryFrame} (hf : f.Sent s.clock) :
    GaugeSystem.Inv register { s with frames := s.frames ++ [f] } where
  requests := hi.requests
  solicitReg := hi.solicitReg
  frames g hg := by
    rcases List.mem_append.mp hg with hg | hg
    · exact hi.frames g hg
    · exact List.mem_singleton.mp hg ▸ hf
  msb := hi.msb
  lsb := hi.lsb
  msbFrom := hi.msbFrom
  lsbFrom := hi.lsbFrom
  counts := hi.counts
  whole := hi.whole

theorem gaugeStep_inv {e : GaugeEvent} (hi : s.Inv register)
    (hstep : gaugeStep register s e = some t) : t.Inv register := by
  cases e with
  | tick ms =>
    obtain rfl := Option.some.inj hstep
    have hlater : s.clock ≤ s.clock + ms := Nat.le_add_right _ _
    exact ⟨hi.requests, hi.solicitReg, fun f hf => (hi.frames f hf).mono hlater, hi.msb, hi.lsb,
      fun u hu => Nat.le_trans (hi.msbFrom u hu) hlater,
      fun u hu => Nat.le_trans (hi.lsbFrom u hu) hlater, hi.counts, hi.whole⟩
  | broadcast =>
    obtain rfl := Option.some.inj hstep
    exact hi.send (Nat.le_refl s.clock)
  | answer request =>
    obtain ⟨reg, hreg, ht⟩ := Option.map_eq_some_iff.mp hstep
    obtain rfl := ht
    exact hi.send ⟨hi.requests reg (List.mem_of_getElem? hreg), Nat.le_refl _⟩
  | trigger sent =>
    obtain rfl := Option.some.inj hstep
    unfold GaugeSystem.trigger
    split
    · refine ⟨fun reg hreg => ?_, hi.solicitReg, hi.frames, hi.msb, hi.lsb, hi.msbFrom,
        hi.lsbFrom, hi.counts, hi.whole⟩
      rcases List.mem_append.mp hreg with hreg | hreg
      · exact hi.requests reg hreg
      · exact .inl (List.mem_singleton.mp hreg)
    · exact hi
  | solicit rc =>
    obtain rfl := Option.some.inj hstep
    exact hi.solicit rc
  | deliver frame echoed =>
    obtain ⟨f, hf, ht⟩ := Option.map_eq_some_iff.mp hstep
    obtain rfl := ht
    exact hi.deliver (hi.frames f (List.mem_of_getElem? hf)) echoed
  | other bytes =>
    simp only [gaugeStep] at hstep
    split at hstep
    · exact absurd hstep (by simp)
    · rename_i hbytes
      obtain rfl := Option.some.inj hstep
      exact hi.other hbytes

/-- In every run, each half of the current is what the register held at one instant, and the whole
is unless the halves came apart and the register changed between them. -/
theorem current_halves (register : ℕ → Int16) (es : List GaugeEvent) :
    Steps (gaugeStep register) (fun _ _ t => CurrentLaw register t) {} es := by
  have hkeep : ∀ {s e t}, GaugeSystem.Inv register s → True → gaugeStep register s e = some t →
      t.Inv register ∧ CurrentLaw register t := fun hi _ hstep =>
    ⟨gaugeStep_inv hi hstep, (gaugeStep_inv hi hstep).law⟩
  exact Steps.of_inv hkeep (GaugeSystem.init_inv register) (Steps.of_mem fun _ _ => trivial)

/-- A current that crosses from 255 to 256 between the two reads of its halves. -/
def crossing (t : ℕ) : Int16 := if t < 600 then 0x00FF else 0x0100

/-- The high byte is read before the crossing, the low one after it. -/
def crossedReads : List GaugeEvent :=
  [.tick 500, .solicit 0, .answer 0, .deliver 0 false, .tick 501, .solicit 0, .answer 1,
    .deliver 1 false]

/-- The head reports no current, which the register never held. -/
theorem current_torn :
    (exec (gaugeStep crossing) {} crossedReads).map
        (fun s => (s.gauge.currentSeen, s.gauge.currentCounts)) = some (true, 0) ∧
      ∀ t, crossing t ≠ 0 := by
  refine ⟨by decide +kernel, fun t => ?_⟩
  unfold crossing
  split <;> decide

end Steps

end DiveCANHead.Accessories
