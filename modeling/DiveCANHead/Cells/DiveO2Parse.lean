import DiveCANHead.Cells.DiveO2Frames

/-!
# What the parsers of a DiveO2 cell accept (`oxygen_cell_diveo2.c`)

A measurement is a header and a number of decimal integers that fit 32 bits; the third is the error
code, whose bits give the status. The parsers take a message for what it says unless a field starts
with white space other than a blank, a field does not fit, or the error code is a multiple of 65536
other than zero: `strtol` skips the white space and saturates, and only 16 bits of the code are
looked at.
-/

namespace DiveCANHead.Cells

open DiveCANHead.Lib

/-! ## What a message says -/

/-- The range of `int32_t`. -/
def FitsInt32 (z : ℤ) : Prop := -2147483648 ≤ z ∧ z ≤ 2147483647

instance decidableFitsInt32 (z : ℤ) : Decidable (FitsInt32 z) :=
  inferInstanceAs (Decidable (_ ∧ _))

/-- The integer a field spells, where it fits. -/
def int32Of (field : Text) : Option ℤ :=
  (strictIntegerOf field).filter fun z => decide (FitsInt32 z)

def fatalBits : ℕ := errLowIntensity ||| errHighSignal ||| errLowSignal ||| errHighRef ||| errTemp

def warningBits : ℕ := warnHumidityFail ||| warnPressure ||| warnHumidityHigh ||| warnNearSat

/-- The status an error code stands for, by all its bits. -/
def statusOfCode (code : ℤ) : CellStatus :=
  if code = 0 then .ok
  else if toWord 32 code &&& fatalBits ≠ 0 then .fail
  else if toWord 32 code &&& warningBits ≠ 0 then .degraded
  else .fail

/-- The reading in a `#DOXY` or `#MOXY` message. -/
def simpleReadingOf (message : Text) : Option DiveO2SimpleReading :=
  match tokens blank message with
  | hdr :: fields =>
    if hdr = ascii ['#', 'D', 'O', 'X', 'Y'] ∨ hdr = ascii ['#', 'M', 'O', 'X', 'Y'] then
      match readFields int32Of diveo2SimpleFieldCount fields with
      | some [ppo2, temperature, err] => some ⟨ppo2, temperature, statusOfCode err⟩
      | _ => none
    else none
  | [] => none

/-- The reading in a `#DRAW` or `#MRAW` message. -/
def detailedReadingOf (message : Text) : Option DiveO2DetailedReading :=
  match tokens blank message with
  | hdr :: fields =>
    if hdr = ascii ['#', 'D', 'R', 'A', 'W'] ∨ hdr = ascii ['#', 'M', 'R', 'A', 'W'] then
      match readFields int32Of diveo2DetailedFieldCount fields with
      | some [ppo2, temperature, err, phase, intensity, ambient, pressure, humidity] =>
        some ⟨ppo2, temperature, err, phase, intensity, ambient, pressure, humidity,
          statusOfCode err⟩
      | _ => none
    else none
  | [] => none

/-- Both parsers put out what the message says, and nothing where it says nothing. -/
def ParsedExactly (message : Text) : Prop :=
  diveo2ParseSimpleResponse message = simpleReadingOf message ∧
    diveo2ParseDetailedResponse message = detailedReadingOf message

/-! ## Fields -/

/-- Where the first fields all read as integers: none starts with white space, all fit, and the
error code does not vanish with its upper bits. -/
def PlainFields (count : ℕ) (fields : List Text) : Prop :=
  ∀ values, readFields integerOf count fields = some values →
    (∀ field ∈ fields.take count, Unspaced field) ∧ (∀ z ∈ values, FitsInt32 z) ∧
      (values.getD 2 0 = 0 ∨ values.getD 2 0 % 65536 ≠ 0)

/-- The fields after a measurement header are plain. -/
def PlainMessage (message : Text) : Prop :=
  ∀ hdr fields, tokens blank message = hdr :: fields →
    (diveo2HeaderIs hdr oxySuffix = true → PlainFields diveo2SimpleFieldCount fields) ∧
      (diveo2HeaderIs hdr rawSuffix = true → PlainFields diveo2DetailedFieldCount fields)

theorem int32Of_eq_some_iff {field : Text} {z : ℤ} :
    int32Of field = some z ↔ integerOf field = some z ∧ Unspaced field ∧ FitsInt32 z := by
  rw [int32Of, Option.filter_eq_some_iff, strictIntegerOf_eq_some_iff, decide_eq_true_eq, and_assoc]

theorem readFields_int32Of {count : ℕ} {fields : List Text} {values : List ℤ} :
    readFields int32Of count fields = some values ↔
      readFields integerOf count fields = some values ∧
        (∀ field ∈ fields.take count, Unspaced field) ∧ ∀ z ∈ values, FitsInt32 z := by
  induction count generalizing fields values with
  | zero =>
    simp only [readFields, List.take_zero, Option.some.injEq]
    constructor
    · rintro rfl
      simp
    · exact And.left
  | succ count ih =>
    cases fields with
    | nil => simp [readFields]
    | cons field fields =>
      simp only [readFields, Option.bind_eq_some_iff, Option.map_eq_some_iff, List.take_succ_cons,
        int32Of_eq_some_iff, ih, List.forall_mem_cons]
      constructor
      · rintro ⟨v, ⟨hv, hun, hfits⟩, vs, ⟨hvs, huns, hall⟩, rfl⟩
        exact ⟨⟨v, hv, vs, hvs, rfl⟩, ⟨hun, huns⟩, List.forall_mem_cons.mpr ⟨hfits, hall⟩⟩
      · rintro ⟨⟨v, hv, vs, hvs, rfl⟩, ⟨hun, huns⟩, hall⟩
        obtain ⟨hfits, hrest⟩ := List.forall_mem_cons.mp hall
        exact ⟨v, ⟨hv, hun, hfits⟩, vs, ⟨hvs, huns, hrest⟩, rfl⟩

theorem toLong_of_fits {z : ℤ} (h : FitsInt32 z) : toLong z = z := by
  unfold FitsInt32 at h
  grind [toLong, longMin, longMax]

/-! ## The status -/

/-- A mask of 16 bits sees the lowest 16 bits. -/
theorem toWord_and_mask (z : ℤ) {mask : ℕ} (hmask : mask < 65536) :
    toWord 32 z &&& mask = (z % 65536).toNat &&& mask := by
  have hlow : toWord 32 z % 65536 = (z % 65536).toNat := by
    unfold toWord
    omega
  have hand : toWord 32 z &&& mask < 2 ^ 16 := Nat.and_lt_two_pow _ hmask
  have hsmall : mask % 2 ^ 16 = mask := Nat.mod_eq_of_lt hmask
  calc toWord 32 z &&& mask
      = (toWord 32 z &&& mask) % 2 ^ 16 := (Nat.mod_eq_of_lt hand).symm
    _ = (toWord 32 z % 2 ^ 16) &&& mask := by rw [Nat.and_mod_two_pow, hsmall]
    _ = (z % 65536).toNat &&& mask := congrArg (· &&& mask) hlow

/-- The code's status is that of the error code unless the code vanishes with its upper bits. -/
theorem diveo2ParseErrorCode_eq_iff {errStr : Text} {e : ℤ} (h : integerOf errStr = some e)
    (hfits : FitsInt32 e) :
    diveo2ParseErrorCode errStr = statusOfCode e ↔ e = 0 ∨ e % 65536 ≠ 0 := by
  have hfatal : toWord 32 e &&& fatalBits = (e % 65536).toNat &&& fatalBits :=
    toWord_and_mask e (by decide)
  have hwarning : toWord 32 e &&& warningBits = (e % 65536).toNat &&& warningBits :=
    toWord_and_mask e (by decide)
  have hcode : diveo2ParseErrorCode errStr =
      if (e % 65536).toNat &&& fatalBits ≠ 0 then .fail
      else if (e % 65536).toNat &&& warningBits ≠ 0 then .degraded
      else if (e % 65536).toNat > 0 then .fail else .ok := by
    rw [diveo2ParseErrorCode, strtol_of_integerOf h, toLong_of_fits hfits]
    rfl
  rw [hcode, statusOfCode, hfatal, hwarning]
  by_cases hzero : e = 0
  · simp [hzero]
  · by_cases hlow : e % 65536 = 0
    · simp [hzero, hlow]
    · have hpos : (e % 65536).toNat > 0 := by omega
      simp [hzero, hlow, hpos]

/-! ## The parsers -/

theorem headerIs_iff {hdr suffix : Text} :
    diveo2HeaderIs hdr suffix = true ↔
      hdr = ascii ['#', 'D'] ++ suffix ∨ hdr = ascii ['#', 'M'] ++ suffix := by
  match hdr with
  | [] | [_] => simp [diveo2HeaderIs, ascii]
  | hash :: family :: body =>
    simp only [diveo2HeaderIs, ascii, Bool.and_eq_true, Bool.or_eq_true, beq_iff_eq,
      List.map_cons, List.map_nil, List.cons_append, List.nil_append, List.cons.injEq]
    grind

/-- What a parser makes of the fields: their values, and the status of the error code. -/
def parsedFields (count : ℕ) (fields : List Text) : Option (List ℤ × CellStatus) :=
  (readFields diveo2ParseI32 count fields).map fun values =>
    (values, diveo2ParseErrorCode (errField fields))

/-- What the fields say. -/
def saidFields (count : ℕ) (fields : List Text) : Option (List ℤ × CellStatus) :=
  (readFields int32Of count fields).map fun values => (values, statusOfCode (values.getD 2 0))

theorem integerOf_third {count : ℕ} {fields : List Text} {values : List ℤ} (hcount : 2 < count)
    (h : readFields integerOf count fields = some values) :
    integerOf (errField fields) = some (values.getD 2 0) ∧ values.getD 2 0 ∈ values := by
  have hlt : 2 < values.length := by rw [length_readFields h]; exact hcount
  have hget : values.getD 2 0 = values[2] := by
    rw [List.getD_eq_getElem?_getD, List.getElem?_eq_getElem hlt, Option.getD_some]
  rw [hget]
  exact ⟨read_of_readFields h (List.getElem?_eq_getElem hlt), List.getElem_mem hlt⟩

/-- Values that all fit are parsed as they are. -/
theorem parsed_of_read {count : ℕ} {fields : List Text} {values : List ℤ}
    (h : readFields int32Of count fields = some values) :
    parsedFields count fields = some (values, diveo2ParseErrorCode (errField fields)) := by
  obtain ⟨hread, -, hfits⟩ := readFields_int32Of.mp h
  have hexact : values.map toLong = values :=
    (List.map_congr_left fun z hz => toLong_of_fits (hfits z hz)).trans (List.map_id values)
  rw [parsedFields, readFields_parseI32, hread, Option.map_some, Option.map_some, hexact]

/-- The fields are parsed for what they say exactly where they are plain. -/
theorem parsedFields_eq_iff {count : ℕ} (hcount : 2 < count) (fields : List Text) :
    parsedFields count fields = saidFields count fields ↔ PlainFields count fields := by
  constructor
  · intro h values hread
    obtain ⟨herr, hthird⟩ := integerOf_third hcount hread
    have hparsed : parsedFields count fields =
        some (values.map toLong, diveo2ParseErrorCode (errField fields)) := by
      rw [parsedFields, readFields_parseI32, hread, Option.map_some, Option.map_some]
    obtain ⟨said, hsaid, heq⟩ := Option.map_eq_some_iff.mp (h.symm.trans hparsed)
    obtain ⟨hsame, hun, hfits⟩ := readFields_int32Of.mp hsaid
    obtain rfl : values = said := Option.some.inj (hread.symm.trans hsame)
    refine ⟨hun, hfits, (diveo2ParseErrorCode_eq_iff herr (hfits _ hthird)).mp ?_⟩
    exact (Prod.mk.inj heq).2.symm
  · intro h
    cases hread : readFields integerOf count fields with
    | none =>
      have hsaid : readFields int32Of count fields = none := by
        rw [Option.eq_none_iff_forall_ne_some]
        intro values hvalues
        exact absurd (hread.symm.trans (readFields_int32Of.mp hvalues).1) (by simp)
      rw [parsedFields, readFields_parseI32, hread, saidFields, hsaid]
      rfl
    | some values =>
      obtain ⟨herr, hthird⟩ := integerOf_third hcount hread
      obtain ⟨hun, hfits, hcode⟩ := h values hread
      have hsaid : readFields int32Of count fields = some values :=
        readFields_int32Of.mpr ⟨hread, hun, hfits⟩
      rw [parsed_of_read hsaid, saidFields, hsaid, Option.map_some,
        (diveo2ParseErrorCode_eq_iff herr (hfits _ hthird)).mpr hcode]

/-- What a parser puts out of `count` values and a status: it never refuses them, and the status is
part of it. -/
structure PutsOut {R : Type} (count : ℕ) (put : List ℤ × CellStatus → Option R) : Prop where
  some : ∀ {values} (status), values.length = count → ∃ r, put (values, status) = some r
  status : ∀ {values status status'}, values.length = count →
    put (values, status) = put (values, status') → status = status'

/-- Parsers agree on the output exactly where they do on the fields. -/
theorem PutsOut.eq_iff {R : Type} {count : ℕ} {put : List ℤ × CellStatus → Option R}
    (h : PutsOut count put) (fields : List Text) :
    (parsedFields count fields).bind put = (saidFields count fields).bind put ↔
      parsedFields count fields = saidFields count fields := by
  refine ⟨fun heq => ?_, fun heq => by rw [heq]⟩
  cases hsaid : readFields int32Of count fields with
  | some values =>
    have hlen := length_readFields hsaid
    rw [parsed_of_read hsaid, saidFields, hsaid, Option.map_some] at heq ⊢
    rw [h.status hlen heq]
  | none =>
    rw [saidFields, hsaid, Option.map_none] at heq ⊢
    cases hparsed : readFields diveo2ParseI32 count fields with
    | none => rw [parsedFields, hparsed, Option.map_none]
    | some values =>
      obtain ⟨r, hr⟩ := h.some (diveo2ParseErrorCode (errField fields)) (length_readFields hparsed)
      rw [parsedFields, hparsed, Option.map_some, Option.bind_some, hr] at heq
      cases heq

/-- The output of the simple parser. -/
def putSimple : List ℤ × CellStatus → Option DiveO2SimpleReading
  | ([ppo2, temperature, _], status) => some ⟨ppo2, temperature, status⟩
  | _ => none

/-- The output of the detailed parser. -/
def putDetailed : List ℤ × CellStatus → Option DiveO2DetailedReading
  | ([ppo2, temperature, err, phase, intensity, ambient, pressure, humidity], status) =>
    some ⟨ppo2, temperature, err, phase, intensity, ambient, pressure, humidity, status⟩
  | _ => none

theorem putsOut_simple : PutsOut diveo2SimpleFieldCount putSimple where
  some {values} status hlen := by
    match values, hlen with
    | [_, _, _], _ => exact ⟨_, rfl⟩
  status {values status status'} hlen h := by
    match values, hlen, h with
    | [_, _, _], _, h => exact (DiveO2SimpleReading.mk.inj (Option.some.inj h)).2.2

theorem putsOut_detailed : PutsOut diveo2DetailedFieldCount putDetailed where
  some {values} status hlen := by
    match values, hlen with
    | [_, _, _, _, _, _, _, _], _ => exact ⟨_, rfl⟩
  status {values status status'} hlen h := by
    match values, hlen, h with
    | [_, _, _, _, _, _, _, _], _, h =>
      exact (DiveO2DetailedReading.mk.inj (Option.some.inj h)).2.2.2.2.2.2.2.2

theorem exists_of_length_eight : ∀ {values : List ℤ}, values.length = 8 →
    ∃ a b c d e f g h, values = [a, b, c, d, e, f, g, h]
  | [_, _, _, _, _, _, _, _], _ => ⟨_, _, _, _, _, _, _, _, rfl⟩

section Message

variable {message hdr : Text} {fields : List Text}

theorem diveo2ParseSimpleResponse_fields (htok : messageTokens message = hdr :: fields) :
    diveo2ParseSimpleResponse message =
      if diveo2HeaderIs hdr oxySuffix then
        (parsedFields diveo2SimpleFieldCount fields).bind putSimple
      else none := by
  simp only [diveo2ParseSimpleResponse, htok, parsedFields]
  cases hread : readFields diveo2ParseI32 diveo2SimpleFieldCount fields with
  | none => rfl
  | some values =>
    obtain ⟨_, _, _, rfl⟩ := List.length_eq_three.mp (length_readFields hread)
    rfl

theorem diveo2ParseDetailedResponse_fields (htok : messageTokens message = hdr :: fields) :
    diveo2ParseDetailedResponse message =
      if diveo2HeaderIs hdr rawSuffix then
        (parsedFields diveo2DetailedFieldCount fields).bind putDetailed
      else none := by
  simp only [diveo2ParseDetailedResponse, htok, parsedFields]
  cases hread : readFields diveo2ParseI32 diveo2DetailedFieldCount fields with
  | none => rfl
  | some values =>
    obtain ⟨_, _, _, _, _, _, _, _, rfl⟩ := exists_of_length_eight (length_readFields hread)
    rfl

theorem simpleReadingOf_fields (htok : tokens blank message = hdr :: fields) :
    simpleReadingOf message =
      if diveo2HeaderIs hdr oxySuffix then
        (saidFields diveo2SimpleFieldCount fields).bind putSimple
      else none := by
  have hhdr : (hdr = ascii ['#', 'D', 'O', 'X', 'Y'] ∨ hdr = ascii ['#', 'M', 'O', 'X', 'Y']) ↔
      diveo2HeaderIs hdr oxySuffix = true := headerIs_iff.symm
  simp only [simpleReadingOf, htok, saidFields, hhdr]
  cases hread : readFields int32Of diveo2SimpleFieldCount fields with
  | none => rfl
  | some values =>
    obtain ⟨_, _, _, rfl⟩ := List.length_eq_three.mp (length_readFields hread)
    rfl

theorem detailedReadingOf_fields (htok : tokens blank message = hdr :: fields) :
    detailedReadingOf message =
      if diveo2HeaderIs hdr rawSuffix then
        (saidFields diveo2DetailedFieldCount fields).bind putDetailed
      else none := by
  have hhdr : (hdr = ascii ['#', 'D', 'R', 'A', 'W'] ∨ hdr = ascii ['#', 'M', 'R', 'A', 'W']) ↔
      diveo2HeaderIs hdr rawSuffix = true := headerIs_iff.symm
  simp only [detailedReadingOf, htok, saidFields, hhdr]
  cases hread : readFields int32Of diveo2DetailedFieldCount fields with
  | none => rfl
  | some values =>
    obtain ⟨_, _, _, _, _, _, _, _, rfl⟩ := exists_of_length_eight (length_readFields hread)
    rfl

end Message

/-- Both parsers take a message for what it says exactly where the message is plain. -/
theorem parsedExactly_iff {message : Text} (hshort : message.length ≤ diveo2RxBufferLen - 1) :
    ParsedExactly message ↔ PlainMessage message := by
  have htokens := messageTokens_of_short hshort
  cases htok : tokens blank message with
  | nil =>
    refine iff_of_true ⟨?_, ?_⟩ fun hdr fields h => ?_
    · simp only [diveo2ParseSimpleResponse, htokens, htok, simpleReadingOf]
    · simp only [diveo2ParseDetailedResponse, htokens, htok, detailedReadingOf]
    · rw [htok] at h
      cases h
  | cons hdr fields =>
    have hsimple : diveo2ParseSimpleResponse message = simpleReadingOf message ↔
        (diveo2HeaderIs hdr oxySuffix = true → PlainFields diveo2SimpleFieldCount fields) := by
      rw [diveo2ParseSimpleResponse_fields (htokens.trans htok), simpleReadingOf_fields htok]
      split
      · next hoxy =>
        rw [putsOut_simple.eq_iff, parsedFields_eq_iff (by decide)]
        exact ⟨fun h _ => h, fun h => h hoxy⟩
      · next hother => exact iff_of_true rfl fun h => absurd h hother
    have hdetailed : diveo2ParseDetailedResponse message = detailedReadingOf message ↔
        (diveo2HeaderIs hdr rawSuffix = true → PlainFields diveo2DetailedFieldCount fields) := by
      rw [diveo2ParseDetailedResponse_fields (htokens.trans htok), detailedReadingOf_fields htok]
      split
      · next hraw =>
        rw [putsOut_detailed.eq_iff, parsedFields_eq_iff (by decide)]
        exact ⟨fun h _ => h, fun h => h hraw⟩
      · next hother => exact iff_of_true rfl fun h => absurd h hother
    rw [ParsedExactly, hsimple, hdetailed]
    constructor
    · intro h hdr' fields' h'
      obtain ⟨rfl, rfl⟩ := List.cons.inj (htok.symm.trans h')
      exact h
    · intro h
      exact h hdr fields htok

/-- A healthy reading. -/
def healthyMessage : Text := ascii "#DOXY 209500 20000 0".toList

theorem parsedExactly_healthy : ParsedExactly healthyMessage ↔ PlainMessage healthyMessage :=
  parsedExactly_iff (by decide)

/-- An error code of 65536 passes for a healthy reading. -/
def upperCodeMessage : Text := ascii "#DOXY 209500 20000 65536".toList

theorem upperCode_healthy : ¬ ParsedExactly upperCodeMessage := by
  rintro ⟨hsimple, -⟩
  have hparsed : diveo2ParseSimpleResponse upperCodeMessage = some ⟨209500, 20000, .ok⟩ := by
    decide +kernel
  have hsaid : simpleReadingOf upperCodeMessage = some ⟨209500, 20000, .fail⟩ := by
    decide +kernel
  rw [hparsed, hsaid] at hsimple
  cases hsimple

end DiveCANHead.Cells
