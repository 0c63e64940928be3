import DiveCANHead.Ble.Receive

/-!
# What the receive path loses

A segment that the decoder throws on takes the rest of its notification with it, and every packet
that the notification had completed; a short packet takes those after it. A damaged segment whose
escapes the decoder lets pass is handed on like a datagram if it is long enough.
-/

namespace DiveCANHead.Ble

open DiveCANHead.Lib SLIPCodec

/-! ## Segments that the decoder lets pass -/

/-- The packet is long enough to be a datagram. -/
def long (packet : List UInt8) : Bool := 4 ≤ packet.length

namespace Segment

/-- What a damaged segment says: every byte but the ESCs. -/
def weight : Segment → ℕ
  | datagram data _ => data.length
  | damaged body _ _ => body.countP (· ≠ slipEsc)

/-- The decoder does not throw: after an ESC comes a letter for END or ESC, another ESC, or END. -/
def Tolerated : Segment → Prop
  | datagram _ _ => True
  | damaged body _ _ => body.IsChain AfterEsc

/-- The packets that the segment completes. -/
def packets (seg : Segment) : List (List UInt8) :=
  (({} : SLIPCodec).decode seg.bytes).2.toOption.getD []

end Segment

/-- No damaged segment has an escape that the decoder throws on, or four bytes besides its ESCs, and
after one that has any such byte there is no datagram. -/
structure Sound (segs : List Segment) : Prop where
  tolerated : ∀ seg ∈ segs, seg.Tolerated
  short : ∀ seg ∈ segs, seg.payload = none → seg.weight < 4
  last : segs.Pairwise fun a b => a.payload ≠ none ∨ a.weight = 0 ∨ b.payload = none

namespace Segment

variable {seg : Segment}

theorem packets_eq {d : SLIPCodec} {packets : List (List UInt8)}
    (h : Decodes {} seg.bytes d packets) : seg.packets = packets := by
  rw [Segment.packets, h.decode]
  rfl

theorem ne_nil_of_long {data : List UInt8} (hlong : 4 ≤ data.length) : data ≠ [] := by
  rintro rfl
  exact absurd hlong (by decide)

theorem decodes_of_tolerated (h : seg.Tolerated) :
    Decodes {} seg.bytes {} seg.packets ∧
      ((seg.weight = 0 ∧ seg.packets = []) ∨
        ∃ packet, seg.packets = [packet] ∧ packet.length = seg.weight ∧ packet ≠ []) := by
  cases seg with
  | datagram data hlong =>
    have hdecodes := decodes_encode (ne_nil_of_long hlong)
    have hpackets : (datagram data hlong).packets = [data] := packets_eq hdecodes
    rw [hpackets]
    exact ⟨hdecodes, .inr ⟨data, rfl, rfl, ne_nil_of_long hlong⟩⟩
  | damaged body hstop hbad =>
    obtain ⟨d, hd, hlen⟩ := decodes_body {} hstop h
    have hdecodes := hd.append (decodes_end d)
    have hpackets : (damaged body hstop hbad).packets =
        if d.buffer.length > 0 then [d.buffer] else [] := packets_eq hdecodes
    rw [hpackets]
    refine ⟨hdecodes, ?_⟩
    have hweight : d.buffer.length = (damaged body hstop hbad).weight := by
      rw [hlen]
      exact Nat.zero_add _
    by_cases hpos : d.buffer.length > 0
    · rw [if_pos hpos]
      exact .inr ⟨d.buffer, rfl, hweight, List.length_pos_iff.mp hpos⟩
    · rw [if_neg hpos]
      exact .inl ⟨by omega, rfl⟩

theorem throws_of_not_tolerated (h : ¬seg.Tolerated) : Throws {} seg.bytes := by
  cases seg with
  | datagram => exact absurd trivial h
  | damaged body hstop hbad => exact (throws_body {} hstop h).append _

end Segment

/-! ## Streams -/

section

variable {segs : List Segment} {c d : SLIPCodec} {packets : List (List UInt8)} {s : Stack}

theorem decodes_stream (h : ∀ seg ∈ segs, seg.Tolerated) :
    Decodes {} (stream segs) {} (segs.flatMap Segment.packets) := by
  induction segs with
  | nil => exact .nil _
  | cons seg segs ih =>
    obtain ⟨hseg, hsegs⟩ := List.forall_mem_cons.mp h
    exact (Segment.decodes_of_tolerated hseg).1.append (ih hsegs)

/-- If the decoder gets through the stream, it lets every segment pass. -/
theorem tolerated_of_decodes (h : ¬Throws {} (stream segs)) : ∀ seg ∈ segs, seg.Tolerated := by
  induction segs with
  | nil => exact nofun
  | cons seg segs ih =>
    have hstream : stream (seg :: segs) = seg.bytes ++ stream segs := List.flatMap_cons
    rw [hstream] at h
    have hseg : seg.Tolerated := by
      by_contra hnot
      exact h ((Segment.throws_of_not_tolerated hnot).append _)
    refine List.forall_mem_cons.mpr ⟨hseg, ih fun hthrows => h ?_⟩
    exact (Segment.decodes_of_tolerated hseg).1.throws_append hthrows

/-! ## Notifications -/

theorem handleData_value (n : Notification) : handleData n.value = n.chunk := by
  unfold handleData Notification.value
  cases n.continuation <;> simp

/-- The packets before the first that is too short are handed over. -/
theorem deliver_processed (s : Stack) (packets : List (List UInt8)) :
    (s.deliver packets).slip = s.slip ∧
      (s.deliver packets).processed =
        s.processed ++ (packets.takeWhile long).map (List.drop 4) := by
  induction packets generalizing s with
  | nil => exact ⟨rfl, (List.append_nil _).symm⟩
  | cons packet packets ih =>
    by_cases hlong : packet.length < 4
    · have hparse : parse packet =
          .error ⟨"Datagram too short (minimum 4 bytes)", "DiveCAN", packet.length⟩ := if_pos hlong
      have hneg : ¬long packet = true := by simpa [long] using hlong
      simp only [Stack.deliver, hparse, List.takeWhile_cons_of_neg hneg]
      exact ⟨trivial, (List.append_nil _).symm⟩
    · obtain ⟨datagram, hparse, hpayload⟩ :
          ∃ datagram, parse packet = .ok datagram ∧ datagram.payload = packet.drop 4 :=
        ⟨_, if_neg hlong, rfl⟩
      have hpos : long packet = true := by simpa [long] using hlong
      simp only [Stack.deliver, hparse, List.takeWhile_cons_of_pos hpos, List.map_cons, ← hpayload]
      obtain ⟨hslip, hprocessed⟩ := ih { s with processed := s.processed ++ [datagram.payload] }
      exact ⟨hslip, by rw [hprocessed, List.append_assoc]; rfl⟩

theorem notify_decodes {n : Notification} (h : Decodes s.slip n.chunk d packets) :
    (s.notify n.value).slip = d ∧ (s.notify n.value).processed =
      s.processed ++ (packets.takeWhile long).map (List.drop 4) := by
  rw [Stack.notify, handleData_value, Stack.receive, h.decode]
  exact deliver_processed _ packets

theorem notify_throws {n : Notification} (h : Throws s.slip n.chunk) :
    (s.notify n.value).processed = s.processed := by
  obtain ⟨d, e, he⟩ := h.decode
  rw [Stack.notify, handleData_value, Stack.receive, he]

/-- Where nothing good comes after something bad, the splitting does not matter. -/
theorem received_processed {ns : List Notification} {packets : List (List UInt8)}
    (h : Decodes s.slip (ns.flatMap Notification.chunk) d packets)
    (hgood : GoodFirst long packets) :
    (received s ns).processed = s.processed ++ (packets.filter long).map (List.drop 4) := by
  induction ns generalizing s packets with
  | nil =>
    obtain ⟨-, rfl⟩ := h.unique (.nil _)
    exact (List.append_nil _).symm
  | cons n ns ih =>
    rw [List.flatMap_cons] at h
    rcases decodes_or_throws s.slip n.chunk with ⟨e, front, hfront⟩ | hthrows
    · rcases decodes_or_throws e (ns.flatMap Notification.chunk) with ⟨f, back, hback⟩ | hthrows
      · obtain ⟨rfl, rfl⟩ := h.unique (hfront.append hback)
        obtain ⟨hgood1, hgood2, -⟩ := List.pairwise_append.mp hgood
        obtain ⟨hslip, hprocessed⟩ := notify_decodes hfront
        rw [← hslip] at hback
        show (received (s.notify n.value) ns).processed = _
        rw [ih hback hgood2, hprocessed, takeWhile_eq_filter hgood1, List.filter_append,
          List.map_append, List.append_assoc]
      · exact absurd (hfront.throws_append hthrows) h.not_throws
    · exact absurd (hthrows.append _) h.not_throws

/-- A stream split at its ENDs: a short packet takes nothing else with it. -/
theorem received_segments (h : ∀ seg ∈ segs, seg.Tolerated) (hs : s.slip = {}) :
    (received s (segs.map fun seg => ⟨false, seg.bytes⟩)).processed =
      s.processed ++ segs.flatMap fun seg => (seg.packets.filter long).map (List.drop 4) := by
  induction segs generalizing s with
  | nil => exact (List.append_nil _).symm
  | cons seg segs ih =>
    obtain ⟨hseg, hsegs⟩ := List.forall_mem_cons.mp h
    obtain ⟨hdecodes, hpackets⟩ := Segment.decodes_of_tolerated hseg
    have hgood : GoodFirst long seg.packets := by
      rcases hpackets with ⟨-, hnil⟩ | ⟨packet, hone, -, -⟩
      · rw [hnil]
        exact .nil
      · rw [hone]
        exact List.pairwise_singleton _ _
    have hnotify : Decodes s.slip (Notification.mk false seg.bytes).chunk {} seg.packets := by
      rw [hs]
      exact hdecodes
    obtain ⟨hslip, hprocessed⟩ := notify_decodes hnotify
    show (received (s.notify (Notification.value ⟨false, seg.bytes⟩)) _).processed = _
    rw [ih hsegs hslip, hprocessed, takeWhile_eq_filter hgood, List.flatMap_cons,
      List.append_assoc]

end

/-! ## When nothing is lost -/

theorem filterMap_payload (segs : List Segment) :
    segs.filterMap Segment.payload = segs.flatMap fun seg => seg.payload.toList := by
  induction segs with
  | nil => rfl
  | cons seg segs ih =>
    rw [List.flatMap_cons, ← ih]
    cases h : seg.payload with
    | none =>
      rw [List.filterMap_cons_none h]
      rfl
    | some payload =>
      rw [List.filterMap_cons_some h]
      rfl

theorem long_of_datagram {data : List UInt8} {hlong : 4 ≤ data.length} {packet : List UInt8}
    (h : packet ∈ (Segment.datagram data hlong).packets) : packet = data ∧ long packet = true := by
  have hdecodes := decodes_encode (Segment.ne_nil_of_long hlong)
  have hpackets : (Segment.datagram data hlong).packets = [data] := Segment.packets_eq hdecodes
  rw [hpackets] at h
  obtain rfl := List.mem_singleton.mp h
  exact ⟨rfl, by simpa [long] using hlong⟩

/-- What a datagram hands over, and a damaged segment that the decoder lets pass. -/
theorem handed_datagram (data : List UInt8) (hlong : 4 ≤ data.length) :
    (Segment.datagram data hlong).packets.filter long = [data] := by
  have hdecodes := decodes_encode (Segment.ne_nil_of_long hlong)
  have hpackets : (Segment.datagram data hlong).packets = [data] := Segment.packets_eq hdecodes
  have hpos : long data = true := by simpa [long] using hlong
  rw [hpackets, List.filter_cons_of_pos hpos, List.filter_nil]

theorem handed_of_weight {seg : Segment} (h : seg.Tolerated) :
    seg.packets.filter long = [] ↔ seg.weight < 4 := by
  rcases (Segment.decodes_of_tolerated h).2 with ⟨hzero, hnil⟩ | ⟨packet, hone, hlen, -⟩
  · rw [hnil, hzero]
    exact iff_of_true rfl (by decide)
  · rw [hone, List.filter_eq_nil_iff, List.forall_mem_singleton, ← hlen]
    simp [long]

/-- What a sound segment hands over is its payload. -/
theorem payload_of_short {seg : Segment} (h : seg.Tolerated)
    (hshort : seg.payload = none → seg.weight < 4) :
    (seg.packets.filter long).map (List.drop 4) = seg.payload.toList := by
  cases seg with
  | datagram data hlong =>
    rw [handed_datagram]
    rfl
  | damaged body hstop hbad =>
    rw [(handed_of_weight h).mpr (hshort rfl)]
    rfl

variable {segs : List Segment}

theorem mem_packets {seg : Segment} (h : seg.Tolerated) {packet : List UInt8}
    (hp : packet ∈ seg.packets) : packet.length = seg.weight ∧ seg.weight ≠ 0 := by
  rcases (Segment.decodes_of_tolerated h).2 with ⟨-, hnil⟩ | ⟨p, hone, hlen, hne⟩
  · rw [hnil] at hp
    cases hp
  · rw [hone] at hp
    obtain rfl := List.mem_singleton.mp hp
    exact ⟨hlen, hlen ▸ Nat.pos_iff_ne_zero.mp (List.length_pos_iff.mpr hne)⟩

theorem exists_packet {seg : Segment} (h : seg.Tolerated) (hweight : seg.weight ≠ 0) :
    ∃ packet ∈ seg.packets, packet.length = seg.weight := by
  rcases (Segment.decodes_of_tolerated h).2 with ⟨hzero, -⟩ | ⟨packet, hone, hlen, -⟩
  · exact absurd hzero hweight
  · exact ⟨packet, by rw [hone]; exact List.mem_singleton_self _, hlen⟩

theorem weight_of_payload {seg : Segment} (h : seg.payload ≠ none) : 4 ≤ seg.weight := by
  cases seg with
  | datagram data hlong => exact hlong
  | damaged => exact absurd rfl h

/-- No datagram's packet comes after a short one, and no datagram after a segment that has one. -/
theorem goodFirst_packets (htolerated : ∀ seg ∈ segs, seg.Tolerated)
    (hshort : ∀ seg ∈ segs, seg.payload = none → seg.weight < 4) :
    GoodFirst long (segs.flatMap Segment.packets) ↔
      segs.Pairwise fun a b => a.payload ≠ none ∨ a.weight = 0 ∨ b.payload = none := by
  have hlong : ∀ seg ∈ segs, ∀ packet ∈ seg.packets,
      (long packet = true ↔ seg.payload ≠ none) ∧ seg.weight ≠ 0 := by
    intro seg hseg packet hp
    obtain ⟨hlen, hweight⟩ := mem_packets (htolerated seg hseg) hp
    refine ⟨?_, hweight⟩
    rw [long, decide_eq_true_eq, hlen]
    refine ⟨fun h4 hnone => ?_, weight_of_payload⟩
    exact Nat.not_le_of_lt (hshort seg hseg hnone) h4
  rw [GoodFirst, List.pairwise_flatMap, and_iff_right]
  · refine List.Pairwise.iff_of_mem fun {a b} ha hb => ⟨fun h => ?_, fun h x hx y hy => ?_⟩
    · by_contra hnot
      obtain ⟨hnone, hweight, hsome⟩ : a.payload = none ∧ a.weight ≠ 0 ∧ b.payload ≠ none := by
        simpa using hnot
      have hpos : b.weight ≠ 0 := Nat.pos_iff_ne_zero.mp (Nat.lt_of_lt_of_le (by decide)
        (weight_of_payload hsome))
      obtain ⟨x, hx, -⟩ := exists_packet (htolerated a ha) hweight
      obtain ⟨y, hy, -⟩ := exists_packet (htolerated b hb) hpos
      rcases h x hx y hy with hxl | hyl
      · exact (hlong a ha x hx).1.mp hxl hnone
      · exact Bool.false_ne_true (hyl.symm.trans ((hlong b hb y hy).1.mpr hsome))
    · rcases h with hsome | hzero | hnone
      · exact .inl ((hlong a ha x hx).1.mpr hsome)
      · exact absurd hzero (hlong a ha x hx).2
      · exact .inr (Bool.eq_false_iff.mpr fun hyl => (hlong b hb y hy).1.mp hyl hnone)
  · intro seg hseg
    rcases (Segment.decodes_of_tolerated (htolerated seg hseg)).2 with ⟨-, hnil⟩ | ⟨p, hone, -, -⟩
    · rw [hnil]
      exact .nil
    · rw [hone]
      exact List.pairwise_singleton _ _

/-- What all segments hand over, if each is short enough. -/
theorem filter_packets (htolerated : ∀ seg ∈ segs, seg.Tolerated)
    (hshort : ∀ seg ∈ segs, seg.payload = none → seg.weight < 4) :
    ((segs.flatMap Segment.packets).filter long).map (List.drop 4) =
      segs.filterMap Segment.payload := by
  rw [filterMap_payload, List.filter_flatMap, List.map_flatMap]
  exact List.flatMap_congr fun seg hseg => payload_of_short (htolerated seg hseg) (hshort seg hseg)

theorem lossless_of_sound (h : Sound segs) : Lossless segs := by
  intro ns hns
  have hdecodes := decodes_stream h.tolerated
  rw [← hns] at hdecodes
  rw [received_processed (s := {}) hdecodes ((goodFirst_packets h.tolerated h.short).mpr h.last),
    filter_packets h.tolerated h.short]
  exact List.nil_append _

/-- The whole stream in one notification. -/
theorem received_whole (h : ¬Throws {} (stream segs)) :
    (received {} [⟨false, stream segs⟩]).processed =
      ((segs.flatMap Segment.packets).takeWhile long).map (List.drop 4) := by
  have hdecodes : Decodes ({} : Stack).slip (Notification.mk false (stream segs)).chunk {}
      (segs.flatMap Segment.packets) := decodes_stream (tolerated_of_decodes h)
  exact (notify_decodes hdecodes).2

theorem sound_of_lossless (hdatagram : ∃ seg ∈ segs, seg.payload ≠ none) (h : Lossless segs) :
    Sound segs := by
  have hwhole := h [⟨false, stream segs⟩] (List.append_nil _)
  have hthrows : ¬Throws {} (stream segs) := by
    intro hthrows
    have hnone : (received {} [⟨false, stream segs⟩]).processed = [] :=
      notify_throws (s := {}) (n := ⟨false, stream segs⟩) hthrows
    rw [hnone] at hwhole
    obtain ⟨seg, hseg, hpayload⟩ := hdatagram
    exact hpayload (List.filterMap_eq_nil_iff.mp hwhole.symm seg hseg)
  have htolerated := tolerated_of_decodes hthrows
  have hshort : ∀ seg ∈ segs, seg.payload = none → seg.weight < 4 := by
    have hsplit := h (segs.map fun seg => ⟨false, seg.bytes⟩) (by
      rw [stream, List.flatMap_map])
    rw [received_segments htolerated rfl, filterMap_payload] at hsplit
    have hle : ∀ seg ∈ segs, seg.payload.toList.length ≤
        ((seg.packets.filter long).map (List.drop 4)).length := by
      intro seg _
      cases seg with
      | datagram data hlong =>
        rw [handed_datagram]
        exact Nat.le_refl _
      | damaged => exact Nat.zero_le _
    intro seg hseg hnone
    have heq := length_eq_of_flatMap hle (Nat.le_of_eq (congrArg List.length hsplit)) seg hseg
    rw [hnone, List.length_map] at heq
    exact (handed_of_weight (htolerated seg hseg)).mp (List.length_eq_zero_iff.mp heq)
  refine ⟨htolerated, hshort, (goodFirst_packets htolerated hshort).mp (goodFirst_of_length ?_)⟩
  rw [received_whole hthrows, ← filter_packets htolerated hshort] at hwhole
  simpa using congrArg List.length hwhole

/-- A datagram is decoded as it was encoded. A stream of sound segments loses nothing however it is
split, and where there is a datagram to lose, only a stream of sound segments loses nothing. -/
theorem receive_lossless (data : List UInt8) (segs : List Segment) :
    (data ≠ [] → ({} : SLIPCodec).decode (encode data) = ({}, .ok [data])) ∧
      (Sound segs → Lossless segs) ∧
      ((∃ seg ∈ segs, seg.payload ≠ none) → Lossless segs → Sound segs) :=
  ⟨decode_encode, lossless_of_sound, sound_of_lossless⟩

/-! ## A damaged segment takes its neighbours with it -/

/-- Two datagrams, with a segment between them that has an invalid escape. -/
def damagedNeighbour : List Segment :=
  [.datagram [0x80, 0xFF, 0x02, 0x00, 0x3E] (by decide),
    .damaged [0x01, slipEsc, 0x02] (by decide) (by
      intro data hdata
      exact absurd hdata (by simp [Marks.unstuff, slipMarks, slipEsc, slipEscEnd, slipEscEsc])),
    .datagram [0x80, 0xFF, 0x02, 0x00, 0x7E] (by decide)]

theorem damaged_takes_neighbours : ¬Lossless damagedNeighbour := by
  intro h
  have hwhole := h [⟨false, stream damagedNeighbour⟩] (List.append_nil _)
  exact absurd hwhole (by decide)

end DiveCANHead.Ble
