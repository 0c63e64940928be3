import Mathlib.Data.List.Basic
import Mathlib.Tactic.Common

/-!
# Texts of comma-separated fields

A field with a comma, a quote or a line feed is put in quotes, and a quote in it is doubled; rows
are lines. `splitRow` takes a single line apart. `readRows` reads a whole text, for which a line
feed in quotes is part of its field, and the last row needs no line feed behind it.
-/

namespace DiveCANHead.Lib

universe u

/-! ## Cutting -/

section

variable {α : Type u} {stop : α → Bool}

/-- The stretches between the stop symbols, with what comes before the first and after the last. -/
def splits (stop : α → Bool) : List α → List (List α)
  | [] => [[]]
  | a :: s =>
    if stop a then [] :: splits stop s
    else (a :: (splits stop s).headD []) :: (splits stop s).tail

theorem splits_cons (a : α) (s : List α) :
    splits stop (a :: s) =
      if stop a then [] :: splits stop s
      else (a :: (splits stop s).headD []) :: (splits stop s).tail := rfl

theorem splits_ne_nil (s : List α) : splits stop s ≠ [] := by
  cases s with
  | nil => exact List.cons_ne_nil _ _
  | cons a s =>
    rw [splits_cons]
    split <;> exact List.cons_ne_nil _ _

/-- The stretches of a longer text are those before the last, and those of the last with what
follows it. -/
theorem splits_append (s t : List α) :
    splits stop (s ++ t) =
      (splits stop s).dropLast ++ splits stop ((splits stop s).getLastD [] ++ t) := by
  induction s with
  | nil => rfl
  | cons a s ih =>
    rw [List.cons_append, splits_cons, splits_cons, ih]
    cases hs : splits stop s with
    | nil => exact absurd hs (splits_ne_nil s)
    | cons p ps =>
      split
      · rfl
      · next ha =>
        cases ps with
        | nil =>
          show _ = splits stop (a :: (p ++ t))
          rw [splits_cons, if_neg ha]
          rfl
        | cons q ps => rfl

/-- A text without a stop symbol is a single stretch. -/
theorem splits_of_none {s : List α} (h : ∀ a ∈ s, stop a = false) : splits stop s = [s] := by
  induction s with
  | nil => rfl
  | cons a s ih =>
    rw [splits_cons, h a List.mem_cons_self, if_neg Bool.false_ne_true,
      ih fun b hb => h b (.tail _ hb)]
    rfl

/-- The stretch up to the first stop symbol. -/
theorem splits_stop {s : List α} (h : ∀ a ∈ s, stop a = false) {sep : α} (hsep : stop sep = true)
    (t : List α) : splits stop (s ++ sep :: t) = s :: splits stop t := by
  induction s with
  | nil => rw [List.nil_append, splits_cons, if_pos hsep]
  | cons a s ih =>
    rw [List.cons_append, splits_cons, h a List.mem_cons_self, if_neg Bool.false_ne_true,
      ih fun b hb => h b (.tail _ hb)]
    rfl

/-- Joined rows come apart again. -/
theorem splits_intercalate {sep : α} (hsep : stop sep = true) {rows : List (List α)}
    (hne : rows ≠ []) (h : ∀ row ∈ rows, ∀ a ∈ row, stop a = false) :
    splits stop ([sep].intercalate rows) = rows := by
  induction rows with
  | nil => exact absurd rfl hne
  | cons row rows ih =>
    have hrow := h row List.mem_cons_self
    cases rows with
    | nil =>
      show splits stop (row ++ []) = [row]
      rw [List.append_nil, splits_of_none hrow]
    | cons next rows =>
      show splits stop (row ++ sep :: [sep].intercalate (next :: rows)) = _
      rw [splits_stop hrow hsep, ih (List.cons_ne_nil _ _) fun r hr => h r (.tail _ hr)]

end

/-! ## Fields -/

/-- The code units that a field cannot have outside quotes. -/
def isSpecial (c : ℕ) : Bool := c == 34 || c == 44 || c == 10

/-- Each quote doubled. -/
def doubled (field : List ℕ) : List ℕ := field.flatMap fun c => if c = 34 then [34, 34] else [c]

/-- A field as it stands in a row. -/
def escaped (field : List ℕ) : List ℕ :=
  if field.any isSpecial then 34 :: doubled field ++ [34] else field

/-- A row of fields. -/
def csvRow (fields : List (List ℕ)) : List ℕ := [44].intercalate (fields.map escaped)

theorem csvRow_singleton (field : List ℕ) : csvRow [field] = escaped field := List.append_nil _

theorem csvRow_cons (field next : List ℕ) (fields : List (List ℕ)) :
    csvRow (field :: next :: fields) = escaped field ++ 44 :: csvRow (next :: fields) := rfl

theorem doubled_cons (c : ℕ) (field : List ℕ) :
    doubled (c :: field) = (if c = 34 then [34, 34] else [c]) ++ doubled field :=
  List.flatMap_cons

/-- A row of fields without line feeds is a line. -/
theorem csvRow_line {fields : List (List ℕ)} (h : ∀ field ∈ fields, ∀ c ∈ field, c ≠ 10) :
    ∀ c ∈ csvRow fields, c ≠ 10 := by
  have hdoubled : ∀ field : List ℕ, (∀ c ∈ field, c ≠ 10) → ∀ c ∈ doubled field, c ≠ 10 := by
    intro field hfield c hc
    obtain ⟨d, hd, hc⟩ := List.mem_flatMap.mp hc
    split at hc
    · rcases List.mem_cons.mp hc with rfl | hc
      · decide
      · rw [List.mem_singleton.mp hc]
        decide
    · rw [List.mem_singleton.mp hc]
      exact hfield d hd
  have hescaped : ∀ field : List ℕ, (∀ c ∈ field, c ≠ 10) → ∀ c ∈ escaped field, c ≠ 10 := by
    intro field hfield c hc
    unfold escaped at hc
    split at hc
    · rcases List.mem_cons.mp hc with rfl | hc
      · decide
      · rcases List.mem_append.mp hc with hc | hc
        · exact hdoubled field hfield c hc
        · rw [List.mem_singleton.mp hc]
          decide
    · exact hfield c hc
  induction fields with
  | nil => nofun
  | cons field fields ih =>
    have hfirst := hescaped field (h field List.mem_cons_self)
    cases fields with
    | nil => rwa [csvRow_singleton]
    | cons next fields =>
      rw [csvRow_cons]
      intro c hc
      rcases List.mem_append.mp hc with hc | hc
      · exact hfirst c hc
      · rcases List.mem_cons.mp hc with rfl | hc
        · decide
        · exact ih (fun f hf => h f (.tail _ hf)) c hc

/-! ## A single line -/

/-- The fields of what is left of a line, where `cur` is what came of the current one, which may be
in quotes. -/
def splitRowFrom : Bool → List ℕ → List ℕ → List (List ℕ)
  | _, cur, [] => [cur]
  | true, cur, 34 :: 34 :: cs => splitRowFrom true (cur ++ [34]) cs
  | true, cur, c :: cs =>
    if c = 34 then splitRowFrom false cur cs else splitRowFrom true (cur ++ [c]) cs
  | false, cur, c :: cs =>
    if c = 34 then splitRowFrom true cur cs
    else if c = 44 then cur :: splitRowFrom false [] cs
    else splitRowFrom false (cur ++ [c]) cs

def splitRow (line : List ℕ) : List (List ℕ) := splitRowFrom false [] line

/-- What follows a field in its row. -/
def FieldEnd (rest : List ℕ) : Prop := ∀ c ∈ rest.head?, c ≠ 34

/-- One code unit: a quote opens and closes, unless another one follows it in quotes. -/
theorem splitRowFrom_cons {quoted : Bool} {c : ℕ} {cs : List ℕ}
    (h : quoted = true → c = 34 → FieldEnd cs) (cur : List ℕ) :
    splitRowFrom quoted cur (c :: cs) =
      if c = 34 then splitRowFrom (!quoted) cur cs
      else if quoted = false ∧ c = 44 then cur :: splitRowFrom false [] cs
      else splitRowFrom quoted (cur ++ [c]) cs := by
  cases quoted with
  | false => simp [splitRowFrom]
  | true =>
    by_cases hc : c = 34
    · subst hc
      cases cs with
      | nil => rfl
      | cons d cs =>
        have hd : d ≠ 34 := h rfl rfl d rfl
        simp [splitRowFrom, hd]
    · simp [splitRowFrom, hc]

theorem splitRowFrom_close {rest : List ℕ} (hrest : FieldEnd rest) (cur : List ℕ) :
    splitRowFrom true cur (34 :: rest) = splitRowFrom false cur rest :=
  splitRowFrom_cons (fun _ _ => hrest) cur

theorem splitRowFrom_unquoted (c : ℕ) (cur cs : List ℕ) :
    splitRowFrom false cur (c :: cs) =
      if c = 34 then splitRowFrom true cur cs
      else if c = 44 then cur :: splitRowFrom false [] cs
      else splitRowFrom false (cur ++ [c]) cs := by
  rw [splitRowFrom_cons fun hquoted => absurd hquoted Bool.false_ne_true]
  simp only [true_and, Bool.not_false]

theorem splitRowFrom_quoted {c : ℕ} (hc : c ≠ 34) (cur cs : List ℕ) :
    splitRowFrom true cur (c :: cs) = splitRowFrom true (cur ++ [c]) cs := by
  have hquoted : ¬(true = false ∧ c = 44) := fun h => Bool.false_ne_true h.1.symm
  rw [splitRowFrom_cons fun _ h => absurd h hc, if_neg hc, if_neg hquoted]

theorem splitRowFrom_doubled {rest : List ℕ} (hrest : FieldEnd rest) (cur field : List ℕ) :
    splitRowFrom true cur (doubled field ++ 34 :: rest) =
      splitRowFrom false (cur ++ field) rest := by
  induction field generalizing cur with
  | nil =>
    rw [List.append_nil]
    exact splitRowFrom_close hrest cur
  | cons c field ih =>
    rw [doubled_cons]
    by_cases hc : c = 34
    · subst hc
      rw [if_pos rfl]
      show splitRowFrom true (cur ++ [34]) (doubled field ++ 34 :: rest) = _
      rw [ih, List.append_assoc]
      rfl
    · rw [if_neg hc]
      show splitRowFrom true cur (c :: (doubled field ++ 34 :: rest)) = _
      rw [splitRowFrom_quoted hc, ih, List.append_assoc]
      rfl

theorem splitRowFrom_plain {field : List ℕ} (h : ∀ c ∈ field, isSpecial c = false)
    (cur rest : List ℕ) :
    splitRowFrom false cur (field ++ rest) = splitRowFrom false (cur ++ field) rest := by
  induction field generalizing cur with
  | nil => rw [List.nil_append, List.append_nil]
  | cons c field ih =>
    have hc := h c List.mem_cons_self
    simp only [isSpecial, Bool.or_eq_false_iff, beq_eq_false_iff_ne] at hc
    rw [List.cons_append, splitRowFrom_unquoted, if_neg hc.1.1, if_neg hc.1.2,
      ih fun d hd => h d (.tail _ hd), List.append_assoc]
    rfl

theorem not_special_of_plain {field : List ℕ} (h : ¬field.any isSpecial = true) :
    ∀ c ∈ field, isSpecial c = false := fun c hc =>
  Bool.eq_false_iff.mpr fun hspecial => h (List.any_eq_true.mpr ⟨c, hc, hspecial⟩)

/-- A field is read as it was. -/
theorem splitRowFrom_escaped (field : List ℕ) {rest : List ℕ} (hrest : FieldEnd rest) :
    splitRowFrom false [] (escaped field ++ rest) = splitRowFrom false field rest := by
  unfold escaped
  split
  · rw [List.append_assoc]
    show splitRowFrom false [] (34 :: (doubled field ++ 34 :: rest)) = _
    rw [splitRowFrom_unquoted, if_pos rfl, splitRowFrom_doubled hrest, List.nil_append]
  · next hplain =>
    rw [splitRowFrom_plain (not_special_of_plain hplain), List.nil_append]

/-- A row comes apart into its fields. -/
theorem splitRow_csvRow {fields : List (List ℕ)} (hne : fields ≠ []) :
    splitRow (csvRow fields) = fields := by
  unfold splitRow
  induction fields with
  | nil => exact absurd rfl hne
  | cons field fields ih =>
    cases fields with
    | nil =>
      have hend : FieldEnd [] := nofun
      have hread := splitRowFrom_escaped field hend
      rw [List.append_nil] at hread
      rw [csvRow_singleton, hread]
      rfl
    | cons next fields =>
      have hend : FieldEnd (44 :: csvRow (next :: fields)) := fun c hc => by
        obtain rfl := Option.some.inj hc
        decide
      rw [csvRow_cons, splitRowFrom_escaped field hend, splitRowFrom_unquoted,
        if_neg (by decide), if_pos rfl, ih (List.cons_ne_nil _ _)]

/-! ## A whole text -/

/-- Where a reader of a text is: before a row, before a field, in a field, in quotes, or behind a
quote in quotes. -/
inductive CsvState where
  | row
  | field
  | plain
  | quoted
  | quote
  deriving DecidableEq

/-- The state, the fields of the row so far, and what came of the current one. -/
structure CsvReader where
  state : CsvState := .row
  fields : List (List ℕ) := []
  cur : List ℕ := []
  deriving DecidableEq

def isRowEnd (c : ℕ) : Bool := c == 10 || c == 13

namespace CsvReader

/-- The current field is over, and so is the row at a line end. -/
def close (r : CsvReader) (c : ℕ) : Option (List (List ℕ)) × CsvReader :=
  if isRowEnd c then (some (r.fields ++ [r.cur]), {})
  else (none, { state := .field, fields := r.fields ++ [r.cur] })

/-- One code unit, with the row that it ends. -/
def step (r : CsvReader) (c : ℕ) : Option (List (List ℕ)) × CsvReader :=
  match r.state with
  | .row =>
    if isRowEnd c then (some [], {})
    else if c = 44 then r.close c
    else if c = 34 then (none, { r with state := .quoted })
    else (none, { r with state := .plain, cur := r.cur ++ [c] })
  | .field =>
    if isRowEnd c ∨ c = 44 then r.close c
    else if c = 34 then (none, { r with state := .quoted })
    else (none, { r with state := .plain, cur := r.cur ++ [c] })
  | .plain =>
    if isRowEnd c ∨ c = 44 then r.close c else (none, { r with cur := r.cur ++ [c] })
  | .quoted =>
    if c = 34 then (none, { r with state := .quote }) else (none, { r with cur := r.cur ++ [c] })
  | .quote =>
    if isRowEnd c ∨ c = 44 then r.close c
    else if c = 34 then (none, { r with state := .quoted, cur := r.cur ++ [34] })
    else (none, { r with state := .plain, cur := r.cur ++ [c] })

/-- The row that the end of the text ends. -/
def finish (r : CsvReader) : List (List (List ℕ)) :=
  if r.state = .row then [] else [r.fields ++ [r.cur]]

/-- The rows of what is left of a text. -/
def rows (r : CsvReader) : List ℕ → List (List (List ℕ))
  | [] => r.finish
  | c :: cs => (r.step c).1.toList ++ (r.step c).2.rows cs

end CsvReader

/-- The rows of a text. A line feed behind a carriage return makes a row without fields, as an empty
line does. -/
def readRows (text : List ℕ) : List (List (List ℕ)) := ({} : CsvReader).rows text

/-- The field can be read back: outside quotes a carriage return ends its row. -/
def Legible (field : List ℕ) : Prop := field.any isSpecial = true ∨ 13 ∉ field

instance (field : List ℕ) : Decidable (Legible field) :=
  inferInstanceAs (Decidable (field.any isSpecial = true ∨ 13 ∉ field))

namespace CsvReader

variable {fields : List (List ℕ)} {cur field cs : List ℕ}

theorem rows_doubled :
    rows ⟨.quoted, fields, cur⟩ (doubled field ++ 34 :: cs) =
      rows ⟨.quote, fields, cur ++ field⟩ cs := by
  induction field generalizing cur with
  | nil => rw [List.append_nil]; rfl
  | cons c field ih =>
    rw [doubled_cons]
    by_cases hc : c = 34
    · subst hc
      rw [if_pos rfl]
      show rows ⟨.quoted, fields, cur ++ [34]⟩ (doubled field ++ 34 :: cs) = _
      rw [ih, List.append_assoc]
      rfl
    · rw [if_neg hc]
      have hstep : step ⟨.quoted, fields, cur⟩ c = (none, ⟨.quoted, fields, cur ++ [c]⟩) :=
        if_neg hc
      show (step ⟨.quoted, fields, cur⟩ c).1.toList ++
        (step ⟨.quoted, fields, cur⟩ c).2.rows (doubled field ++ 34 :: cs) = _
      rw [hstep]
      show rows ⟨.quoted, fields, cur ++ [c]⟩ (doubled field ++ 34 :: cs) = _
      rw [ih, List.append_assoc]
      rfl

theorem rows_plain (h : ∀ c ∈ field, ¬(isRowEnd c = true ∨ c = 44)) :
    rows ⟨.plain, fields, cur⟩ (field ++ cs) = rows ⟨.plain, fields, cur ++ field⟩ cs := by
  induction field generalizing cur with
  | nil => rw [List.nil_append, List.append_nil]
  | cons c field ih =>
    have hstep : step ⟨.plain, fields, cur⟩ c = (none, ⟨.plain, fields, cur ++ [c]⟩) :=
      if_neg (h c List.mem_cons_self)
    show (step ⟨.plain, fields, cur⟩ c).1.toList ++
      (step ⟨.plain, fields, cur⟩ c).2.rows (field ++ cs) = _
    rw [hstep]
    show rows ⟨.plain, fields, cur ++ [c]⟩ (field ++ cs) = _
    rw [ih fun d hd => h d (.tail _ hd), List.append_assoc]
    rfl

/-- A reader behind a field: the next separator or line end closes it. -/
structure Behind (r : CsvReader) (fields : List (List ℕ)) (field : List ℕ) : Prop where
  fields : r.fields = fields
  cur : r.cur = field
  closes : ∀ c, isRowEnd c = true ∨ c = 44 → r.step c = r.close c
  inside : r.state ≠ .row

/-- A field is read as it was, from before a field and, if it is not empty, from before a row. -/
theorem rows_escaped {s : CsvState} (hs : s = .field ∨ s = .row ∧ field ≠ [])
    (hfield : Legible field) (fields : List (List ℕ)) :
    ∃ r, Behind r fields field ∧ ∀ cs, rows ⟨s, fields, []⟩ (escaped field ++ cs) = r.rows cs := by
  unfold escaped
  by_cases hquoted : field.any isSpecial = true
  · refine ⟨⟨.quote, fields, field⟩, ⟨rfl, rfl, fun c hc => if_pos hc, nofun⟩, fun cs => ?_⟩
    have hopen : step ⟨s, fields, []⟩ 34 = (none, ⟨.quoted, fields, []⟩) := by
      rcases hs with rfl | ⟨rfl, -⟩ <;> rfl
    rw [if_pos hquoted]
    show (step ⟨s, fields, []⟩ 34).1.toList ++
      (step ⟨s, fields, []⟩ 34).2.rows (doubled field ++ [34] ++ cs) = _
    rw [hopen, List.append_assoc]
    show rows ⟨.quoted, fields, []⟩ (doubled field ++ 34 :: cs) = _
    rw [rows_doubled, List.nil_append]
  · rw [if_neg hquoted]
    have hplain : ∀ c ∈ field, ¬(isRowEnd c = true ∨ c = 44) ∧ c ≠ 34 := by
      intro c hc
      have hspecial := not_special_of_plain hquoted c hc
      have hreturn : c ≠ 13 := fun h => hfield.resolve_left hquoted (h ▸ hc)
      simp only [isSpecial, Bool.or_eq_false_iff, beq_eq_false_iff_ne] at hspecial
      simp only [isRowEnd, Bool.or_eq_true, beq_iff_eq]
      omega
    cases field with
    | nil =>
      obtain rfl : s = .field := hs.resolve_right fun h => h.2 rfl
      exact ⟨⟨.field, fields, []⟩, ⟨rfl, rfl, fun c hc => if_pos hc, nofun⟩, fun cs => rfl⟩
    | cons c field =>
      have hc := hplain c List.mem_cons_self
      refine ⟨⟨.plain, fields, c :: field⟩, ⟨rfl, rfl, fun c hc => if_pos hc, nofun⟩,
        fun cs => ?_⟩
      have hstart : step ⟨s, fields, []⟩ c = (none, ⟨.plain, fields, [c]⟩) := by
        rcases hs with rfl | ⟨rfl, -⟩
        · show (if isRowEnd c = true ∨ c = 44 then _ else if c = 34 then _ else _) = _
          rw [if_neg hc.1, if_neg hc.2]
          rfl
        · show (if isRowEnd c = true then _ else if c = 44 then _ else if c = 34 then _ else _) = _
          rw [if_neg fun h => hc.1 (.inl h), if_neg fun h => hc.1 (.inr h), if_neg hc.2]
          rfl
      show (step ⟨s, fields, []⟩ c).1.toList ++ (step ⟨s, fields, []⟩ c).2.rows (field ++ cs) = _
      rw [hstart]
      show rows ⟨.plain, fields, [c]⟩ (field ++ cs) = _
      rw [rows_plain fun d hd => (hplain d (.tail _ hd)).1]
      rfl

theorem Behind.rows_cons {r : CsvReader} (h : Behind r fields field) {c : ℕ}
    (hc : isRowEnd c = true ∨ c = 44) (cs : List ℕ) :
    r.rows (c :: cs) = (r.close c).1.toList ++ (r.close c).2.rows cs := by
  show (r.step c).1.toList ++ (r.step c).2.rows cs = _
  rw [h.closes c hc]

theorem Behind.close_comma {r : CsvReader} (h : Behind r fields field) :
    r.close 44 = (none, ⟨.field, fields ++ [field], []⟩) := by
  show (none, ({ state := .field, fields := r.fields ++ [r.cur] } : CsvReader)) = _
  rw [h.fields, h.cur]

theorem Behind.close_line {r : CsvReader} (h : Behind r fields field) :
    r.close 10 = (some (fields ++ [field]), {}) := by
  show (some (r.fields ++ [r.cur]), ({} : CsvReader)) = _
  rw [h.fields, h.cur]

theorem Behind.rows_nil {r : CsvReader} (h : Behind r fields field) :
    r.rows [] = [fields ++ [field]] := by
  show (if r.state = .row then [] else [r.fields ++ [r.cur]]) = _
  rw [if_neg h.inside, h.fields, h.cur]

/-- A field and the separator behind it. -/
theorem rows_separated {s : CsvState} (hs : s = .field ∨ s = .row) (hfield : Legible field)
    (fields : List (List ℕ)) (cs : List ℕ) :
    rows ⟨s, fields, []⟩ (escaped field ++ 44 :: cs) =
      rows ⟨.field, fields ++ [field], []⟩ cs := by
  by_cases hempty : s = .row ∧ field = []
  · obtain ⟨rfl, rfl⟩ := hempty
    rfl
  · have hs : s = .field ∨ s = .row ∧ field ≠ [] :=
      hs.imp_right fun hrow => ⟨hrow, fun hnil => hempty ⟨hrow, hnil⟩⟩
    obtain ⟨r, hbehind, hread⟩ := rows_escaped hs hfield fields
    rw [hread, hbehind.rows_cons (.inr rfl), hbehind.close_comma]
    rfl

/-- A row is read up to behind its last field. -/
theorem rows_csvRow {row : List (List ℕ)} {s : CsvState} (hne : row ≠ [])
    (hs : s = .field ∨ s = .row ∧ row ≠ [[]]) (hrow : ∀ field ∈ row, Legible field)
    (fields : List (List ℕ)) :
    ∃ r done field, Behind r done field ∧ done ++ [field] = fields ++ row ∧
      ∀ cs, rows ⟨s, fields, []⟩ (csvRow row ++ cs) = r.rows cs := by
  induction row generalizing s fields with
  | nil => exact absurd rfl hne
  | cons field row ih =>
    have hfield := hrow field List.mem_cons_self
    cases row with
    | nil =>
      have hs : s = .field ∨ s = .row ∧ field ≠ [] :=
        hs.imp_right fun h => ⟨h.1, fun hnil => h.2 (hnil ▸ rfl)⟩
      obtain ⟨r, hbehind, hread⟩ := rows_escaped hs hfield fields
      rw [csvRow_singleton]
      exact ⟨r, fields, field, hbehind, rfl, hread⟩
    | cons next row =>
      obtain ⟨r, done, last, hbehind, hdone, hread⟩ := ih (List.cons_ne_nil _ _) (.inl rfl)
        (fun f hf => hrow f (.tail _ hf)) (fields ++ [field])
      refine ⟨r, done, last, hbehind, by rw [hdone, List.append_assoc]; rfl, fun cs => ?_⟩
      rw [csvRow_cons, List.append_assoc]
      show rows ⟨s, fields, []⟩ (escaped field ++ 44 :: (csvRow (next :: row) ++ cs)) = _
      rw [rows_separated (hs.imp_right And.left) hfield, hread]

end CsvReader

/-- Rows are read back, the last one without a line feed behind it. -/
theorem readRows_intercalate {rows : List (List (List ℕ))} (hne : rows ≠ [])
    (hrows : ∀ row ∈ rows, row ≠ [] ∧ row ≠ [[]] ∧ ∀ field ∈ row, Legible field) :
    readRows ([10].intercalate (rows.map csvRow)) = rows := by
  unfold readRows
  induction rows with
  | nil => exact absurd rfl hne
  | cons row rows ih =>
    obtain ⟨hfields, hblank, hlegible⟩ := hrows row List.mem_cons_self
    obtain ⟨r, done, field, hbehind, hdone, hread⟩ :=
      CsvReader.rows_csvRow hfields (.inr ⟨rfl, hblank⟩) hlegible []
    rw [List.nil_append] at hdone
    cases rows with
    | nil =>
      show CsvReader.rows ⟨.row, [], []⟩ (csvRow row ++ []) = [row]
      rw [hread, hbehind.rows_nil, hdone]
    | cons next rows =>
      show CsvReader.rows ⟨.row, [], []⟩
        (csvRow row ++ 10 :: [10].intercalate ((next :: rows).map csvRow)) = _
      rw [hread, hbehind.rows_cons (.inl rfl), hbehind.close_line, hdone]
      show row :: CsvReader.rows {} ([10].intercalate ((next :: rows).map csvRow)) = _
      rw [ih (List.cons_ne_nil _ _) fun row hrow => hrows row (.tail _ hrow)]

end DiveCANHead.Lib
