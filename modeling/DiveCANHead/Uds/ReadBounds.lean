import DiveCANHead.Uds.Read

/-!
# The bounds of a read

The records before a DID decide where its handler starts to write. A request stays inside
the response buffer exactly when no unchecked record starts too close to its end, and every
request is answered once.
-/

namespace DiveCANHead.Uds

variable {env : ReadEnv}

/-! ## The response so far -/

/-- The room of a DID that is alone in its request. -/
def fullRoom : UInt16 := 253

/-- A DID that is served where there is room. -/
def Readable (env : ReadEnv) (did : UInt16) : Prop :=
  settingDidBusy env.settingsLoaded did false = false ∧
    (readHandler env did fullRoom).accepted = true

/-- The whole record of a DID. -/
def recordOf (env : ReadEnv) (did : UInt16) : List UInt8 :=
  didHeader did ++ (readHandler env did fullRoom).bytes

/-- The positive response to these DIDs. -/
def responseOf (env : ReadEnv) (dids : List UInt16) : List UInt8 :=
  (sidReadDataById + responseSidOffset) :: dids.flatMap (recordOf env)

theorem responseOf_append (env : ReadEnv) (dids dids' : List UInt16) :
    responseOf env (dids ++ dids') = responseOf env dids ++ dids'.flatMap (recordOf env) := by
  rw [responseOf, List.flatMap_append, responseOf, List.cons_append]

theorem responseOf_snoc (env : ReadEnv) (dids : List UInt16) (did : UInt16) :
    responseOf env (dids ++ [did]) = responseOf env dids ++ recordOf env did := by
  rw [responseOf_append, List.flatMap_singleton]

theorem length_responseOf_le (env : ReadEnv) (dids dids' : List UInt16) :
    (responseOf env dids).length ≤ (responseOf env (dids ++ dids')).length := by
  rw [responseOf_append, List.length_append]
  exact Nat.le_add_right _ _

/-- The offset of the next record. -/
def nextOffset (env : ReadEnv) (dids : List UInt16) : UInt16 :=
  UInt16.ofNat (responseOf env dids).length

theorem toNat_nextOffset {dids : List UInt16} (h : (responseOf env dids).length < 256) :
    (nextOffset env dids).toNat = (responseOf env dids).length := by
  rw [nextOffset, UInt16.toNat_ofNat']
  omega

/-! ## One handler -/

/-- The room that is left for data after `n` bytes and the header. -/
theorem toNat_room {offset : UInt16} {n : ℕ} (hoffset : offset.toNat = n) (hn : n ≤ 253) :
    (UInt16.ofNat maxResponseLength - offset - 2).toNat = 254 - n := by
  have hmax : (UInt16.ofNat maxResponseLength).toNat = 256 := rfl
  have htwo : (2 : UInt16).toNat = 2 := rfl
  have hleft : (UInt16.ofNat maxResponseLength - offset).toNat = 256 - n := by
    rw [UInt16.toNat_sub, hmax, hoffset]
    omega
  rw [UInt16.toNat_sub, hleft, htwo]
  omega

theorem full_iff {offset : UInt16} {n : ℕ} (hoffset : offset.toNat = n) (hn : n < 256) :
    UInt16.ofNat maxResponseLength - offset < 3 ↔ 253 < n := by
  have hmax : (UInt16.ofNat maxResponseLength).toNat = 256 := rfl
  have hthree : (3 : UInt16).toNat = 3 := rfl
  rw [UInt16.lt_iff_toNat_lt, UInt16.toNat_sub, hmax, hoffset, hthree]
  omega

section Single

variable {did offset : UInt16} {n : ℕ} (hoffset : offset.toNat = n) (hn : n < 256)

include hoffset hn

theorem readSingleDID_full (hfull : 253 < n) :
    (readSingleDID env did offset).accepted = false ∧
      (readSingleDID env did offset).bytes = [] := by
  unfold readSingleDID
  dsimp only
  rw [if_pos ((full_iff hoffset hn).mpr hfull)]
  exact ⟨rfl, rfl⟩

theorem readSingleDID_room (hroom : n ≤ 253) :
    readSingleDID env did offset =
      let r := readHandler env did (UInt16.ofNat maxResponseLength - offset - 2)
      { r with bytes := didHeader did ++ r.bytes } := by
  unfold readSingleDID
  dsimp only
  rw [if_neg (mt (full_iff hoffset hn).mp (Nat.not_lt.mpr hroom))]

/-- The handler writes past the buffer only where an unchecked record does not fit. -/
theorem readSingleDID_inside
    (hfit : ∀ bytes, uncheckedRecord env did = some bytes → n ≤ 253 → n + 2 + bytes.length ≤ 256) :
    n + (readSingleDID env did offset).bytes.length ≤ 256 := by
  rcases Nat.lt_or_ge 253 n with hfull | hroom
  · rw [(readSingleDID_full hoffset hn hfull).2]
    exact hn.le
  · rw [readSingleDID_room hoffset hn hroom]
    have hleft := toNat_room hoffset hroom
    dsimp only
    rw [List.length_append]
    cases hrecord : uncheckedRecord env did with
    | none =>
      have hbound := bounded_readHandler hrecord (UInt16.ofNat maxResponseLength - offset - 2)
        (by omega)
      have hheader : (didHeader did).length = 2 := rfl
      omega
    | some bytes =>
      have hlen := hfit bytes hrecord hroom
      rw [readHandler_of_isStateDID env (isStateDID_of_unchecked hrecord),
        uncheckedRecord_eq_some.mp hrecord]
      have hheader : (didHeader did).length = 2 := rfl
      dsimp only [DidRecord.read]
      omega

/-- An unchecked record is written in full wherever it starts. -/
theorem length_readSingleDID_unchecked {bytes : List UInt8}
    (hrecord : uncheckedRecord env did = some bytes) (hroom : n ≤ 253) :
    (readSingleDID env did offset).bytes.length = 2 + bytes.length := by
  rw [readSingleDID_room hoffset hn hroom,
    readHandler_of_isStateDID env (isStateDID_of_unchecked hrecord),
    uncheckedRecord_eq_some.mp hrecord]
  dsimp only [DidRecord.read]
  rw [List.length_append]
  rfl

/-- Far from the wrap-around of the offset. -/
theorem readSingleDID_short : n + (readSingleDID env did offset).bytes.length ≤ 264 := by
  cases hrecord : uncheckedRecord env did with
  | none =>
    have hin : n + (readSingleDID env did offset).bytes.length ≤ 256 :=
      readSingleDID_inside hoffset hn (by simp [hrecord])
    omega
  | some bytes =>
    have hshort := length_uncheckedRecord hrecord
    rcases Nat.lt_or_ge 253 n with hfull | hroom
    · rw [(readSingleDID_full hoffset hn hfull).2, List.length_nil]
      omega
    · rw [length_readSingleDID_unchecked hoffset hn hrecord hroom]
      omega

/-- What is served short of the end of the buffer is the whole record. -/
theorem readSingleDID_served (hpos : 0 < n)
    (hacc : (readSingleDID env did offset).accepted = true)
    (hlt : n + (readSingleDID env did offset).bytes.length < 256) :
    (readHandler env did fullRoom).accepted = true ∧
      (readSingleDID env did offset).bytes = recordOf env did := by
  rcases Nat.lt_or_ge 253 n with hfull | hroom
  · rw [(readSingleDID_full hoffset hn hfull).1] at hacc
    exact absurd hacc Bool.false_ne_true
  · rw [readSingleDID_room hoffset hn hroom] at hacc hlt ⊢
    dsimp only at hacc hlt ⊢
    rw [List.length_append] at hlt
    have hheader : (didHeader did).length = 2 := rfl
    have hleft := toNat_room hoffset hroom
    have hfullRoom : fullRoom.toNat = 253 := rfl
    have hsteady := steady_readHandler env did _ fullRoom hacc (by omega) (by omega)
    rw [recordOf, hsteady]
    exact ⟨hacc, rfl⟩

/-- A record that fits short of the end of the buffer is served. -/
theorem readSingleDID_readable (hpos : 0 < n)
    (hacc : (readHandler env did fullRoom).accepted = true)
    (hlt : n + (recordOf env did).length < 256) :
    (readSingleDID env did offset).accepted = true ∧
      (readSingleDID env did offset).bytes = recordOf env did := by
  rw [recordOf, List.length_append] at hlt
  have hheader : (didHeader did).length = 2 := rfl
  have hroom : n ≤ 253 := by omega
  have hleft := toNat_room hoffset hroom
  have hfullRoom : fullRoom.toNat = 253 := rfl
  rw [readSingleDID_room hoffset hn hroom, recordOf]
  rw [steady_readHandler env did fullRoom _ hacc (by omega) (by omega)]
  exact ⟨hacc, rfl⟩

end Single

/-! ## One round of the loop -/

theorem responseOf_pos (env : ReadEnv) (dids : List UInt16) : 0 < (responseOf env dids).length :=
  Nat.succ_pos _

/-- The loop with these DIDs served and those left. -/
def readFrom (env : ReadEnv) (pre dids : List UInt16) : Reading :=
  readRecords env dids (responseOf env pre) (nextOffset env pre)

/-- The next record goes into the buffer with more to come. -/
def Served (env : ReadEnv) (pre : List UInt16) (did : UInt16) : Prop :=
  Readable env did ∧ (responseOf env (pre ++ [did])).length < 256

/-- A round: the request is turned down, at once or after the handler, or the record is
appended and the loop goes on. -/
inductive ReadRound (env : ReadEnv) (pre : List UInt16) (did : UInt16) (dids : List UInt16) :
    Reading → Prop where
  | busy (h : settingDidBusy env.settingsLoaded did false = true) :
      ReadRound env pre did dids (.reject .busyRepeatRequest)
  | stopped (h : ¬ Served env pre did) (nrc : Nrc) :
      ReadRound env pre did dids (.after (nextOffset env pre)
        (readSingleDID env did (nextOffset env pre)) (.reject nrc))
  | served (h : Served env pre did) :
      ReadRound env pre did dids (.after (nextOffset env pre)
        (readSingleDID env did (nextOffset env pre)) (readFrom env (pre ++ [did]) dids))

theorem readFrom_round {pre : List UInt16} (hlen : (responseOf env pre).length < 256)
    (did : UInt16) (dids : List UInt16) :
    ReadRound env pre did dids (readFrom env pre (did :: dids)) := by
  have hpos := responseOf_pos env pre
  have hoffset := toNat_nextOffset hlen
  have hshort : (responseOf env pre).length +
      (readSingleDID env did (nextOffset env pre)).bytes.length ≤ 264 :=
    readSingleDID_short hoffset hlen
  unfold readFrom
  rw [readRecords]
  cases hbusy : settingDidBusy env.settingsLoaded did false with
  | true => exact .busy hbusy
  | false =>
    rw [if_neg Bool.false_ne_true]
    dsimp only
    have hnext : (nextOffset env pre +
        UInt16.ofNat (readSingleDID env did (nextOffset env pre)).bytes.length).toNat =
          (responseOf env pre).length +
            (readSingleDID env did (nextOffset env pre)).bytes.length := by
      rw [UInt16.toNat_add, UInt16.toNat_ofNat', hoffset]
      omega
    -- a record that is served in full leaves the response of one DID more
    have hserved : Served env pre did →
        (readSingleDID env did (nextOffset env pre)).accepted = true ∧
          (readSingleDID env did (nextOffset env pre)).bytes = recordOf env did := by
      rintro ⟨hread, hfits⟩
      rw [responseOf_snoc, List.length_append] at hfits
      exact readSingleDID_readable hoffset hlen hpos hread.2 hfits
    split
    · rename_i hrefused
      refine .stopped (fun h => ?_) .requestOutOfRange
      rw [(hserved h).1] at hrefused
      exact Bool.noConfusion hrefused
    · rename_i hacc
      rw [Bool.not_eq_false] at hacc
      split
      · rename_i hlong
        refine .stopped (fun h => ?_) .responseTooLong
        rw [UInt16.le_iff_toNat_le, hnext, (hserved h).2] at hlong
        have hfits := h.2
        rw [responseOf_snoc, List.length_append] at hfits
        exact absurd hfits (Nat.not_lt.mpr hlong)
      · rename_i hlong
        rw [UInt16.le_iff_toNat_le, hnext] at hlong
        have hlt : (responseOf env pre).length +
            (readSingleDID env did (nextOffset env pre)).bytes.length < 256 :=
          Nat.lt_of_not_le hlong
        obtain ⟨hfull, hbytes⟩ := readSingleDID_served hoffset hlen hpos hacc hlt
        have hsnoc : (responseOf env pre).take (nextOffset env pre).toNat ++
            (readSingleDID env did (nextOffset env pre)).bytes = responseOf env (pre ++ [did]) := by
          rw [hoffset, List.take_length, hbytes, responseOf_snoc]
        have hnextOffset : nextOffset env pre +
            UInt16.ofNat (readSingleDID env did (nextOffset env pre)).bytes.length =
              nextOffset env (pre ++ [did]) := by
          apply UInt16.toNat_inj.mp
          rw [hnext, hbytes, toNat_nextOffset, responseOf_snoc, List.length_append]
          rw [responseOf_snoc, List.length_append, ← hbytes]
          exact hlt
        rw [hsnoc, hnextOffset]
        refine .served ⟨⟨hbusy, hfull⟩, ?_⟩
        rw [responseOf_snoc, List.length_append, ← hbytes]
        exact hlt

/-! ## Bounds -/

/-- Every unchecked record that starts with the room for a header and a byte fits. -/
def FitsAfter (env : ReadEnv) (pre dids : List UInt16) : Prop :=
  ∀ mid did post bytes, dids = mid ++ did :: post → (∀ d ∈ mid, Readable env d) →
    uncheckedRecord env did = some bytes → (responseOf env (pre ++ mid)).length ≤ 253 →
      (responseOf env (pre ++ mid)).length + 2 + bytes.length ≤ maxResponseLength

/-- The condition for a whole request. -/
def RecordsFit (env : ReadEnv) (dids : List UInt16) : Prop :=
  ∀ pre did post bytes, dids = pre ++ did :: post → (∀ d ∈ pre, Readable env d) →
    uncheckedRecord env did = some bytes → (responseOf env pre).length ≤ 253 →
      (responseOf env pre).length + 2 + bytes.length ≤ maxResponseLength

theorem fitsAfter_nil (env : ReadEnv) (pre : List UInt16) : FitsAfter env pre [] :=
  fun mid _ _ _ h => absurd h.symm (List.append_ne_nil_of_right_ne_nil mid (List.cons_ne_nil _ _))

theorem fitsAfter_full {pre : List UInt16} (h : 253 < (responseOf env pre).length)
    (dids : List UInt16) : FitsAfter env pre dids := by
  intro mid did post bytes _ _ _ hroom
  have hle := length_responseOf_le env pre mid
  omega

theorem fitsAfter_cons {pre dids : List UInt16} {did : UInt16} :
    FitsAfter env pre (did :: dids) ↔
      (∀ bytes, uncheckedRecord env did = some bytes → (responseOf env pre).length ≤ 253 →
        (responseOf env pre).length + 2 + bytes.length ≤ maxResponseLength) ∧
      (Readable env did → FitsAfter env (pre ++ [did]) dids) := by
  constructor
  · intro h
    constructor
    · intro bytes hrecord
      have hhead := h [] did dids bytes rfl (by simp) hrecord
      rwa [List.append_nil] at hhead
    · intro hread mid did' post bytes hdids hmid
      have htail := h (did :: mid) did' post bytes (by rw [hdids, List.cons_append])
        (List.forall_mem_cons.mpr ⟨hread, hmid⟩)
      rwa [List.append_cons] at htail
  · rintro ⟨hhead, htail⟩ mid did' post bytes hdids hmid
    cases mid with
    | nil =>
      obtain ⟨rfl, rfl⟩ := List.cons.inj hdids
      rw [List.append_nil]
      exact hhead bytes
    | cons d mid =>
      obtain ⟨rfl, hrest⟩ := List.cons.inj hdids
      rw [List.append_cons]
      exact htail (hmid did List.mem_cons_self) mid did' post bytes hrest
        fun d hd => hmid d (List.mem_cons_of_mem _ hd)

/-- All handlers write into the buffer. -/
def Reading.Inside (r : Reading) : Prop := ∀ w ∈ r.writes, w.1 + w.2 ≤ maxResponseLength

theorem inside_reject (nrc : Nrc) : (Reading.reject nrc).Inside := by
  intro w hw
  rw [List.mem_singleton.mp hw]
  decide

theorem inside_after {offset : UInt16} {r : DidRead} {rest : Reading} :
    (Reading.after offset r rest).Inside ↔
      offset.toNat + r.bytes.length ≤ maxResponseLength ∧ rest.Inside :=
  List.forall_mem_cons

theorem inside_single_iff {pre : List UInt16} (hlen : (responseOf env pre).length < 256)
    (did : UInt16) :
    (nextOffset env pre).toNat + (readSingleDID env did (nextOffset env pre)).bytes.length ≤
        maxResponseLength ↔
      ∀ bytes, uncheckedRecord env did = some bytes → (responseOf env pre).length ≤ 253 →
        (responseOf env pre).length + 2 + bytes.length ≤ maxResponseLength := by
  have hoffset := toNat_nextOffset hlen
  rw [hoffset]
  constructor
  · intro h bytes hrecord hroom
    rw [length_readSingleDID_unchecked hoffset hlen hrecord hroom] at h
    omega
  · exact readSingleDID_inside hoffset hlen

theorem readFrom_inside_iff (dids : List UInt16) :
    ∀ pre, (responseOf env pre).length < 256 →
      ((readFrom env pre dids).Inside ↔ FitsAfter env pre dids) := by
  induction dids with
  | nil =>
    intro pre _
    exact iff_of_true (fun _ hw => absurd hw List.not_mem_nil) (fitsAfter_nil env pre)
  | cons did dids ih =>
    intro pre hlen
    rw [fitsAfter_cons]
    generalize hreading : readFrom env pre (did :: dids) = reading
    have hround := readFrom_round hlen did dids
    rw [hreading] at hround
    cases hround with
    | busy h =>
      refine ⟨fun _ => ⟨fun bytes hrecord => ?_, fun hread => ?_⟩, fun _ => inside_reject _⟩
      · have hstate := isStateDID_of_unchecked hrecord
        rw [not_isStateDID_of_busy h] at hstate
        exact absurd hstate Bool.false_ne_true
      · rw [hread.1] at h
        exact absurd h Bool.false_ne_true
    | stopped h nrc =>
      rw [inside_after, inside_single_iff hlen]
      refine ⟨fun hin => ⟨hin.1, fun hread => fitsAfter_full ?_ dids⟩,
        fun hfit => ⟨hfit.1, inside_reject nrc⟩⟩
      by_contra hle
      exact h ⟨hread, by omega⟩
    | served h =>
      rw [inside_after, inside_single_iff hlen, ih (pre ++ [did]) h.2]
      exact and_congr_right fun _ => ⟨fun hfit _ => hfit, fun hfit => hfit h.1⟩

/-- No handler starts beyond the buffer, and the offset after it does not wrap. -/
def Reading.NoWrap (r : Reading) : Prop :=
  ∀ w ∈ r.writes, w.1 ≤ maxResponseLength ∧ w.1 + w.2 < 2 ^ 16

theorem noWrap_reject (nrc : Nrc) : (Reading.reject nrc).NoWrap := by
  intro w hw
  rw [List.mem_singleton.mp hw]
  decide

theorem noWrap_after {offset : UInt16} {r : DidRead} {rest : Reading} :
    (Reading.after offset r rest).NoWrap ↔
      (offset.toNat ≤ maxResponseLength ∧ offset.toNat + r.bytes.length < 2 ^ 16) ∧
        rest.NoWrap :=
  List.forall_mem_cons

theorem readFrom_noWrap (dids : List UInt16) :
    ∀ pre, (responseOf env pre).length < 256 → (readFrom env pre dids).NoWrap := by
  induction dids with
  | nil => exact fun pre _ w hw => absurd hw List.not_mem_nil
  | cons did dids ih =>
    intro pre hlen
    have hoffset := toNat_nextOffset hlen
    have hshort : (responseOf env pre).length +
        (readSingleDID env did (nextOffset env pre)).bytes.length ≤ 264 :=
      readSingleDID_short hoffset hlen
    have hsingle : (nextOffset env pre).toNat ≤ maxResponseLength ∧
        (nextOffset env pre).toNat +
          (readSingleDID env did (nextOffset env pre)).bytes.length < 2 ^ 16 := by
      rw [hoffset]
      exact ⟨hlen.le, by omega⟩
    generalize hreading : readFrom env pre (did :: dids) = reading
    have hround := readFrom_round hlen did dids
    rw [hreading] at hround
    cases hround with
    | busy h => exact noWrap_reject _
    | stopped h nrc => exact noWrap_after.mpr ⟨hsingle, noWrap_reject nrc⟩
    | served h => exact noWrap_after.mpr ⟨hsingle, ih _ h.2⟩

/-! ## Answers -/

def Effect.isReport : Effect → Bool
  | .opError _ _ => true
  | _ => false

/-- Reports, then one answer: the records of all DIDs in their order, or a negative one. -/
def AnsweredOnce (env : ReadEnv) (dids : List UInt16) (effects : List Effect) : Prop :=
  ∃ reports answer, effects = reports ++ [.respond answer] ∧ (∀ e ∈ reports, e.isReport = true) ∧
    ((∀ d ∈ dids, Readable env d) ∧ answer = responseOf env dids ∨
      ∃ nrc, answer = negativeResponse sidReadDataById nrc)

theorem answeredOnce_reject (dids : List UInt16) (nrc : Nrc) :
    AnsweredOnce env dids (Reading.reject nrc).effects :=
  ⟨[.opError .udsNrc nrc.code.toUInt32], _, rfl, by simp [Effect.isReport], .inr ⟨nrc, rfl⟩⟩

theorem AnsweredOnce.after {dids : List UInt16} {rest : Reading} (offset : UInt16) (r : DidRead)
    (h : AnsweredOnce env dids rest.effects) :
    AnsweredOnce env dids (Reading.after offset r rest).effects := by
  obtain ⟨reports, answer, heffects, hreports, hanswer⟩ := h
  refine ⟨r.reports.map (fun e => .opError e.1 e.2) ++ reports, answer, ?_, ?_, hanswer⟩
  · rw [Reading.after, heffects, List.append_assoc]
  · intro e he
    rcases List.mem_append.mp he with he | he
    · obtain ⟨report, -, rfl⟩ := List.mem_map.mp he
      rfl
    · exact hreports e he

theorem readFrom_answeredOnce (dids : List UInt16) :
    ∀ pre, (responseOf env pre).length < 256 → (∀ d ∈ pre, Readable env d) →
      AnsweredOnce env (pre ++ dids) (readFrom env pre dids).effects := by
  induction dids with
  | nil =>
    intro pre hlen hpre
    rw [List.append_nil]
    refine ⟨[], responseOf env pre, ?_, nofun, .inl ⟨hpre, rfl⟩⟩
    rw [readFrom, readRecords, toNat_nextOffset hlen, List.take_length, List.nil_append]
  | cons did dids ih =>
    intro pre hlen hpre
    generalize hreading : readFrom env pre (did :: dids) = reading
    have hround := readFrom_round hlen did dids
    rw [hreading] at hround
    cases hround with
    | busy h => exact answeredOnce_reject _ _
    | stopped h nrc => exact (answeredOnce_reject _ nrc).after _ _
    | served h =>
      rw [List.append_cons]
      refine (ih _ h.2 fun d hd => ?_).after _ _
      rcases List.mem_append.mp hd with hd | hd
      · exact hpre d hd
      · rw [List.mem_singleton.mp hd]
        exact h.1

/-! ## Requests -/

theorem readDataByIdentifier_ok {env : ReadEnv} {q : Request} (hok : readLengthOk q = true) :
    readDataByIdentifier env q =
      Reading.after 0 { accepted := true, bytes := [sidReadDataById + responseSidOffset] }
        (readFrom env [] (requestedDids q)) := by
  rw [readDataByIdentifier, if_pos hok]
  rfl

theorem readDataByIdentifier_malformed {env : ReadEnv} {q : Request}
    (hok : readLengthOk q = false) :
    readDataByIdentifier env q = .reject .incorrectMsgLen := by
  rw [readDataByIdentifier, hok]
  rfl

theorem length_responseOf_nil (env : ReadEnv) : (responseOf env []).length < 256 :=
  show 1 < 256 by decide

theorem readDataByIdentifier_answeredOnce (env : ReadEnv) (q : Request) :
    AnsweredOnce env (requestedDids q) (readDataByIdentifier env q).effects := by
  cases hok : readLengthOk q with
  | false =>
    rw [readDataByIdentifier_malformed hok]
    exact answeredOnce_reject _ _
  | true =>
    rw [readDataByIdentifier_ok hok]
    exact (readFrom_answeredOnce _ [] (length_responseOf_nil env) nofun).after _ _

/-- A request is read inside the buffer, without a wrap, and answered once. -/
structure ReadSafe (env : ReadEnv) (q : Request) : Prop where
  inside : (readDataByIdentifier env q).Inside
  noWrap : (readDataByIdentifier env q).NoWrap
  answered : AnsweredOnce env (requestedDids q) (readDataByIdentifier env q).effects

/-- The handlers stay inside the buffer exactly for the requests in which no record that is
written without a look at the room starts too close to the end. -/
theorem readSafe_iff (env : ReadEnv) (q : Request) :
    ReadSafe env q ↔ (readLengthOk q = true → RecordsFit env (requestedDids q)) := by
  have hlen := length_responseOf_nil env
  constructor
  · intro h hok
    have hin := h.inside
    rw [readDataByIdentifier_ok hok, inside_after, readFrom_inside_iff _ _ hlen] at hin
    exact hin.2
  · intro h
    refine ⟨?_, ?_, readDataByIdentifier_answeredOnce env q⟩ <;> cases hok : readLengthOk q
    · rw [readDataByIdentifier_malformed hok]
      exact inside_reject _
    · rw [readDataByIdentifier_ok hok, inside_after, readFrom_inside_iff _ _ hlen]
      exact ⟨by decide, h hok⟩
    · rw [readDataByIdentifier_malformed hok]
      exact noWrap_reject _
    · rw [readDataByIdentifier_ok hok]
      exact noWrap_after.mpr ⟨by decide, readFrom_noWrap _ _ hlen⟩

/-- 43 DIDs of four bytes each: the last record starts three bytes before the end. -/
def longRead : Request :=
  .ofBytes ([0, sidReadDataById] ++ (List.replicate 43 [0xF2, 0x00]).flatten)

theorem longRead_overruns : ¬ ReadSafe {} longRead := by
  intro h
  have hwrite : (253, 6) ∈ (readDataByIdentifier {} longRead).writes := by decide +kernel
  exact absurd (h.inside (253, 6) hwrite) (by decide)

end DiveCANHead.Uds
