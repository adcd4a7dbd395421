import ChatHub.Identity.Reading
import ChatHub.Terminal.Basic
import ChatHub.Proofs.Record.Framing
import ChatHub.Proofs.Record.RoundTrip
/-!
# From the introduction to the records

A terminal says who calls and goes on with records at once. Where one packet ends and the next
begins is not its choice, so the receive that brings the introduction may bring records with it, or
the beginning of one. The relay cuts at the zero byte and hands the rest on. One byte too many or
too few here, and no record of the session would be read right.

Three agreements make it work. A user id that a terminal accepts holds no control character, so the
first zero byte is the one that closes it, and nothing at its end is taken for a line break
(`parse_greeting`). One receive is too small for a whole record, so none is left lying undecoded
(`length_of_receive`). And a framer does not mind how its bytes were cut
(`Framer.feedAll_of_short`).
-/

namespace ChatHub

/-! ## User ids that a terminal accepts -/

theorem BadUser.find?_eq_none_iff {user : String} :
    find? user = none ↔
      user.isEmpty = false ∧ user.utf8ByteSize ≤ maxSenderBytes ∧
        ∀ c ∈ user.toList, Text.isControl c = false := by
  rw [find?]
  by_cases hempty : user.isEmpty = true
  · simp [hempty]
  · by_cases hlong : maxSenderBytes < user.utf8ByteSize
    · simp [hempty, hlong, Nat.not_le.mpr hlong]
    · simp [hempty, hlong, Nat.not_lt.mp hlong]

theorem ne_of_not_control {c d : Char} (hc : Text.isControl c = false)
    (hd : Text.isControl d = true) : c ≠ d := by
  rintro rfl
  exact absurd hd (by simp [hc])

namespace Identity

theorem splitAtZero_append {raw : List UInt8} (h : 0 ∉ raw) (rest : List UInt8) :
    splitAtZero (raw ++ 0 :: rest) = (raw, rest) := by
  have hall : ∀ b ∈ raw, (b != 0) = true := fun b hb => bne_iff_ne.mpr fun he => h (he ▸ hb)
  rw [splitAtZero, List.takeWhile_append_of_pos hall, List.dropWhile_append_of_pos hall]
  simp

/-- Who is accepted is named by the bytes before the first zero, and not by too many. -/
theorem parse_eq_ok_iff {bytes : List UInt8} {max : Nat} {caller : Identity} :
    parse bytes max = .ok caller ↔
      caller = ⟨userOf (splitAtZero bytes).1, (splitAtZero bytes).2⟩ ∧
        caller.user.isEmpty = false ∧ caller.user.utf8ByteSize ≤ max := by
  rw [parse]
  dsimp only
  by_cases hempty : (userOf (splitAtZero bytes).1).isEmpty = true
  · rw [if_pos hempty]
    refine ⟨nofun, ?_⟩
    rintro ⟨rfl, hnamed, -⟩
    exact absurd hempty (Bool.eq_false_iff.mp hnamed)
  · by_cases hlong : max < (userOf (splitAtZero bytes).1).utf8ByteSize
    · rw [if_neg hempty, if_pos hlong]
      refine ⟨nofun, ?_⟩
      rintro ⟨rfl, -, hfits⟩
      exact absurd hlong (Nat.not_lt.mpr hfits)
    · rw [if_neg hempty, if_neg hlong, Except.ok.injEq]
      refine ⟨?_, fun h => h.1.symm⟩
      rintro rfl
      exact ⟨rfl, Bool.eq_false_iff.mpr hempty, Nat.not_lt.mp hlong⟩

theorem parse_append {raw : List UInt8} {max : Nat} (h : 0 ∉ raw)
    (named : (userOf raw).isEmpty = false) (fits : (userOf raw).utf8ByteSize ≤ max)
    (rest : List UInt8) : parse (raw ++ 0 :: rest) max = .ok ⟨userOf raw, rest⟩ := by
  rw [parse_eq_ok_iff, splitAtZero_append h]
  exact ⟨rfl, named, fits⟩

theorem userOf_encode {user : String} (h : ∀ c ∈ user.toList, isLineEnd c = false) :
    userOf (Utf8.encode user) = user := by
  have hkeep : Text.dropEndWhile isLineEnd user.toList = user.toList := by
    rw [Text.dropEndWhile, List.dropWhile_eq_self_iff.mpr, List.reverse_reverse]
    intro hpos
    simpa using h _ (List.mem_reverse.mp (List.getElem_mem hpos))
  rw [userOf, Utf8.encode, Utf8.decodeChars_encodeChars, hkeep, String.ofList_toList]

/-- A greeting names its user, and what follows it is untouched. -/
theorem parse_greeting {user : String} {max : Nat} (valid : BadUser.find? user = none)
    (fits : user.utf8ByteSize ≤ max) (rest : List UInt8) :
    parse (Terminal.greeting user ++ rest) max = .ok { user, leftover := rest } := by
  obtain ⟨hempty, -, hcontrol⟩ := BadUser.find?_eq_none_iff.mp valid
  have hnul : '\x00' ∉ user.toList := fun hmem =>
    ne_of_not_control (hcontrol _ hmem) (by decide) rfl
  have hline : ∀ c ∈ user.toList, isLineEnd c = false := by
    intro c hc
    have hcr : c ≠ '\r' := ne_of_not_control (hcontrol c hc) (by decide)
    have hlf : c ≠ '\n' := ne_of_not_control (hcontrol c hc) (by decide)
    simp [isLineEnd, hcr, hlf]
  have hbytes : Terminal.greeting user ++ rest = Utf8.encode user ++ 0 :: rest := by
    rw [Terminal.greeting, List.append_assoc, List.singleton_append]
  have hzero : 0 ∉ Utf8.encode user := Utf8.zero_notMem_encodeChars hnul
  have huser := userOf_encode hline
  rw [hbytes, parse_append hzero (by rwa [huser]) (by rwa [huser]), huser]

end Identity

namespace Peer

/-! ## What one receive brings -/

theorem length_of_receiveBy {deadline now : Nat} {due : Option Nat} {script : List PeerEvent}
    {got : List UInt8} {p : Peer} (h : receiveBy deadline now due script = (.bytes got, p)) :
    got.length ≤ receiveSpace := by
  induction script generalizing now due with
  | nil => cases h
  | cons e script ih =>
    cases e with
    | data bytes =>
      obtain ⟨hgot, -⟩ := Prod.mk.inj h
      rw [← Received.bytes.inj hgot]
      exact List.length_take_le ..
    | delay ms =>
      rw [receiveBy] at h
      split at h
      · exact ih h
      · cases h
    | failure text => cases h
    | eof =>
      obtain ⟨hgot, -⟩ := Prod.mk.inj h
      rw [← Received.bytes.inj hgot]
      exact Nat.zero_le _

theorem length_of_receive {p p' : Peer} {timeout : Nat} {got : List UInt8}
    (h : p.receive timeout = (.bytes got, p')) : got.length ≤ receiveSpace :=
  length_of_receiveBy h

/-- A packet that is there and fits comes in one receive. -/
theorem receive_data {packet : List UInt8} (h : packet.length ≤ receiveSpace)
    (script : List PeerEvent) (timeout : Nat) :
    (ofScript (.data packet :: script)).receive timeout
      = (.bytes packet, ofScript script) := by
  rw [receive, ofScript, receiveBy, List.take_of_length_le h]
  simp only [if_pos h, ofScript]

end Peer

/-! ## The records behind the introduction -/

namespace Record

theorem blocks_flatMap_encode (ms : List Record) :
    blocks (ms.flatMap encode) = ms.map encode := by
  induction ms with
  | nil => exact blocks_of_short (by decide)
  | cons m ms ih =>
    rw [List.flatMap_cons, blocks_of_block m.length_encode, ih, List.map_cons]

theorem remnant_flatMap_encode (ms : List Record) : remnant (ms.flatMap encode) = [] := by
  induction ms with
  | nil => exact remnant_of_short (by decide)
  | cons m ms ih => rw [List.flatMap_cons, remnant_of_block m.length_encode, ih]

end Record

/-- Records come out as they were sent, whatever pieces they came in. -/
theorem Framer.feedAll_records {kept : List UInt8} {later : List (List UInt8)} {ms : List Record}
    (hkept : kept.length < Record.size) (h : kept ++ later.flatten = ms.flatMap Record.encode) :
    feedAll ⟨kept⟩ later = (ms.map fun m => Record.decode m.encode, empty) := by
  rw [feedAll_of_short hkept, h, Record.blocks_flatMap_encode, Record.remnant_flatMap_encode,
    List.map_map, Function.comp_def, empty]

namespace Peer

/-- **Nothing is lost between the introduction and the records.** Whenever the receive that waits
for an identity brings all of a greeting, and with it as much as may be of the records that follow,
the peer is known by exactly the user id it gave, no complete record is left over, and what is left
over makes, with all that comes later and however it is cut, exactly the records that were sent. It
makes no difference whether the framer is fed the rest or begins with it. -/
theorem readIdentity_handover {user : String} {max timeout : Nat} {ms : List Record} {p p' : Peer}
    {first : List UInt8} {later : List (List UInt8)} (valid : BadUser.find? user = none)
    (fits : user.utf8ByteSize ≤ max) (read : p.receive timeout = (.bytes first, p'))
    (stream : first ++ later.flatten = Terminal.greeting user ++ ms.flatMap Record.encode)
    (whole : (Terminal.greeting user).length ≤ first.length) :
    ∃ leftover, p.readIdentity max timeout = (.ok { user, leftover }, p') ∧
      leftover.length < Record.size ∧
      Framer.empty.feedAll (leftover :: later)
        = (ms.map fun m => Record.decode m.encode, Framer.empty) ∧
      Framer.feedAll ⟨leftover⟩ later = (ms.map fun m => Record.decode m.encode, Framer.empty) := by
  obtain ⟨leftover, rfl⟩ : ∃ leftover, first = Terminal.greeting user ++ leftover := by
    have hprefix := List.prefix_of_prefix_length_le (List.prefix_append _ _)
      (stream ▸ List.prefix_append first later.flatten) whole
    exact ⟨_, (List.prefix_iff_eq_append.mp hprefix).symm⟩
  rw [List.append_assoc, List.append_cancel_left_eq] at stream
  have hshort : leftover.length < Record.size := by
    have hspace := length_of_receive read
    rw [List.length_append] at hspace
    exact Nat.lt_of_le_of_lt (Nat.le_trans (Nat.le_add_left ..) hspace) (by decide)
  have hparse := Identity.parse_greeting valid fits leftover
  -- No bytes at all would be the end of the stream, but a greeting has its zero byte.
  obtain ⟨b, bs, hcons⟩ : ∃ b bs, Terminal.greeting user ++ leftover = b :: bs :=
    List.exists_cons_of_ne_nil (by simp [Terminal.greeting])
  refine ⟨leftover, ?_, hshort, ?_, Framer.feedAll_records hshort stream⟩
  · rw [hcons] at read hparse
    rw [readIdentity, read]
    exact congrArg (·, p') hparse
  · have hnothing : ([] : List UInt8).length < Record.size := by decide
    exact Framer.feedAll_records hnothing stream

/-- The receive stops in the middle of the first record. -/
theorem readIdentity_handover_midway :
    let m := Record.make .text "ann" "hi" 7
    let first := Terminal.greeting "ann" ++ m.encode.take 100
    let later := [[], m.encode.drop 100 ++ m.encode]
    let p := Peer.ofScript [.data first]
    BadUser.find? "ann" = none ∧ "ann".utf8ByteSize ≤ 63 ∧
      p.receive 1000 = (.bytes first, Peer.ofScript []) ∧
      first ++ later.flatten = Terminal.greeting "ann" ++ [m, m].flatMap Record.encode ∧
      (Terminal.greeting "ann").length ≤ first.length ∧
      ∃ leftover, p.readIdentity 63 1000 = (.ok ⟨"ann", leftover⟩, Peer.ofScript []) ∧
        leftover.length < Record.size ∧
        Framer.empty.feedAll (leftover :: later)
          = ([m, m].map fun m => Record.decode m.encode, Framer.empty) ∧
        Framer.feedAll ⟨leftover⟩ later
          = ([m, m].map fun m => Record.decode m.encode, Framer.empty) := by
  intro m first later p
  have valid : BadUser.find? "ann" = none := by decide
  have fits : "ann".utf8ByteSize ≤ 63 := by decide
  have whole : (Terminal.greeting "ann").length ≤ first.length := by
    simp only [first, List.length_append]
    exact Nat.le_add_right ..
  have space : first.length ≤ receiveSpace := by
    have hgreeting : (Terminal.greeting "ann").length = 4 := by decide
    rw [List.length_append, hgreeting, List.length_take_of_le (by rw [m.length_encode]; decide)]
    decide
  have read : p.receive 1000 = (.bytes first, Peer.ofScript []) := receive_data space [] 1000
  have stream : first ++ later.flatten
      = Terminal.greeting "ann" ++ [m, m].flatMap Record.encode := by
    simp only [first, later, List.flatten_cons, List.flatten_nil, List.flatMap_cons,
      List.flatMap_nil, List.append_assoc, List.nil_append, List.append_nil]
    rw [← List.append_assoc (m.encode.take 100), List.take_append_drop]
  exact ⟨valid, fits, read, stream, whole,
    readIdentity_handover valid fits read stream whole⟩

end Peer

end ChatHub
