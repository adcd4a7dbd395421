import ChatHub.Proofs.Hub.Relayed
import ChatHub.Proofs.Record.Canonical
import ChatHub.Proofs.Record.Cutting
/-!
# The size that a line says it has

A record says how many bytes its payload has. The relay itself never asks: where a payload ends is
said by the zero behind it. But the number is sent on with the record, and whoever reads it may
believe it.

A record made here says the truth, because what sets the payload sets the number with it. A line
that came from a peer goes through that only when its payload is longer than the limit. Any other
line goes round with the number that the peer put into it, whatever that was, and also when the peer
told the truth and bytes that are no characters grew while they were read (`Hub.sizeTrue_line_iff`).
-/

namespace ChatHub

namespace Record

/-- A record that was read says what the peer wrote there. -/
theorem payloadSize_of_decode {bytes : List UInt8} {m : Record} (h : decode bytes = .ok m) :
    m.payloadSize.toNat = ofLittleEndian (slice 8 4 bytes) := by
  unfold decode at h
  split at h
  · rename_i hlength
    obtain rfl := Except.ok.inj h
    exact Nat.mod_eq_of_lt (littleEndian_slice (hlength ▸ by decide)).1
  · cases h

end Record

namespace Hub

section Line

variable {m : Record} (t : Clock) {limit : Nat} (user : String)

theorem payloadSize_relayed :
    (relayed t limit user m).payloadSize = (limited limit m).payloadSize := by
  show (signed user (limited limit m)).payloadSize = _
  unfold signed
  split <;> rfl

/-- A line that is cut gets the size of what is left. -/
theorem sizeTrue_relayed_of_cut (hlimit : limit ≤ maxPayloadBytes)
    (hcut : limit < m.payload.utf8ByteSize) : (relayed t limit user m).SizeTrue := by
  have hlimited : limited limit m = m.withPayload (Text.truncate m.payload limit) := if_pos hcut
  -- Cutting to the limit has left nothing for the setter to cut.
  have hpayload : (relayed t limit user m).payload = (limited limit m).payload := by
    rw [payload_relayed t user hlimit, hlimited]
    show _ = Text.truncate (Text.truncate m.payload limit) maxPayloadBytes
    rw [Text.truncate_truncate, Nat.min_eq_left hlimit]
  rw [Record.SizeTrue, payloadSize_relayed, hpayload, hlimited]
  exact m.sizeTrue_withPayload _

theorem payloadSize_relayed_of_whole (hwhole : m.payload.utf8ByteSize ≤ limit) :
    (relayed t limit user m).payloadSize = m.payloadSize := by
  rw [payloadSize_relayed, limited, if_neg (Nat.not_lt.mpr hwhole)]

end Line

/-- **A line says the truth about its size if it was cut, or if its peer did.** Under settings that
make sense, and in any hub at all, dealing with a line that came in puts one record at the end of
the queue of everybody else who is active and has room. Its payload is the beginning of the one that
was read, as far as the limit lets it go. Its size is that of its payload if the one that was read
is longer than the limit, and otherwise the number in the bytes that came, so it is true in just
that many cases. -/
theorem sizeTrue_line_iff {s : Settings} (valid : s.validate = .ok ()) {bytes : List UInt8}
    {m : Record} (came : Record.decode bytes = .ok m) (hkind : m.kind = .text) (h : Hub) (t : Clock)
    (id : Nat) (user : String) :
    let sent := relayed t s.maxPayloadBytes user m
    let claimed := ofLittleEndian (Record.slice 8 4 bytes)
    (∀ d ∈ h.registry.clients, ∃ d',
      (h.dispatch t s.maxPayloadBytes id user m).registry.find? d.id = some d' ∧
        d'.link.mailbox.queue = d.link.mailbox.queue ++
          if d.id ≠ id ∧ d.active = true ∧ d.link.mailbox.hasRoom = true then [sent] else []) ∧
      sent.payload.toList <+: m.payload.toList ∧
      sent.payload.utf8ByteSize ≤ s.maxPayloadBytes ∧
      sent.payloadSize.toNat =
        (if s.maxPayloadBytes < m.payload.utf8ByteSize then sent.payload.utf8ByteSize
        else claimed) ∧
      (sent.SizeTrue ↔
        s.maxPayloadBytes < m.payload.utf8ByteSize ∨ claimed = m.payload.utf8ByteSize) := by
  intro sent claimed
  obtain ⟨-, -, -, hlimit⟩ := Settings.bounds_of_valid valid
  have hpayload : sent.payload = Text.truncate m.payload s.maxPayloadBytes :=
    payload_relayed t user hlimit
  have hkept := Text.longestWithin_truncate m.payload s.maxPayloadBytes
  rw [← hpayload] at hkept
  refine ⟨fun d hd => queue_dispatch_text hkind t _ id user hd, hkept.begins, hkept.fits, ?_⟩
  by_cases hcut : s.maxPayloadBytes < m.payload.utf8ByteSize
  · have htrue : sent.SizeTrue := sizeTrue_relayed_of_cut t user hlimit hcut
    rw [if_pos hcut]
    exact ⟨htrue, iff_of_true htrue (.inl hcut)⟩
  · have hwhole : m.payload.utf8ByteSize ≤ s.maxPayloadBytes := Nat.not_lt.mp hcut
    have hsize : sent.payloadSize.toNat = claimed :=
      (congrArg UInt32.toNat (payloadSize_relayed_of_whole t user hwhole)).trans
        (Record.payloadSize_of_decode came)
    rw [if_neg hcut, Record.SizeTrue, hsize, hpayload, Text.truncate_of_le hwhole]
    exact ⟨rfl, (or_iff_right hcut).symm⟩

/-- A payload of one byte that is no character, from a peer who says that it has one. It goes round
with three. -/
theorem sizeTrue_line_iff_of_a_broken_byte :
    let s := Settings.standard
    let bytes := 1 :: List.replicate 7 0 ++ [1, 0, 0, 0] ++ List.replicate 64 0
      ++ 255 :: List.replicate 4107 0
    let m : Record :=
      { kind := .text, senderId := 0, payloadSize := 1, sender := "", payload := "\uFFFD",
        timestamp := 0 }
    let h := (empty s.cacheCapacity).run
      [.join ⟨9, 0⟩ 0 1 "bob" none 4, .join ⟨9, 0⟩ 0 2 "ann" none 4]
    s.validate = .ok () ∧ Record.decode bytes = .ok m ∧ m.kind = .text ∧
      ∃ d sent, (h.dispatch ⟨9, 0⟩ s.maxPayloadBytes 1 "bob" m).registry.find? 2 = some d ∧
        d.link.mailbox.queue = [sent] ∧ sent.payloadSize.toNat = 1 ∧ ¬sent.SizeTrue := by
  intro s bytes m h
  have valid : s.validate = .ok () := Settings.valid_standard
  have came : Record.decode bytes = .ok m := by
    have hread : (Record.decode bytes).toOption = some m := by decide +kernel
    cases hdecode : Record.decode bytes with
    | error fault => rw [hdecode] at hread; cases hread
    | ok r => rw [hdecode] at hread; exact congrArg _ (Option.some.inj hread)
  obtain ⟨hqueues, -, -, hsize, htrue⟩ := sizeTrue_line_iff valid came rfl h ⟨9, 0⟩ 1 "bob"
  obtain ⟨d, hd, hid, hactive, hroom, hempty⟩ : ∃ d ∈ h.registry.clients,
      d.id = 2 ∧ d.active = true ∧ d.link.mailbox.hasRoom = true ∧ d.link.mailbox.queue = [] := by
    decide +kernel
  obtain ⟨d', hd', hqueue⟩ := hqueues d hd
  rw [hid] at hd' hqueue
  rw [hempty, if_pos ⟨by decide, hactive, hroom⟩] at hqueue
  have hshort : ¬s.maxPayloadBytes < m.payload.utf8ByteSize := by decide
  have hclaimed : ofLittleEndian (Record.slice 8 4 bytes) = 1 := by decide +kernel
  rw [if_neg hshort, hclaimed] at hsize
  rw [hclaimed] at htrue
  exact ⟨valid, came, rfl, d', _, hd', hqueue, hsize,
    fun htold => (htrue.mp htold).elim hshort (by decide)⟩

/-- A peer says that two letters are 99 bytes, and so does the record that the other one gets. -/
theorem line_size_untrue :
    let s := Settings.standard
    let m : Record := { Record.make .text "" "hi" 7 with payloadSize := 99 }
    let h := (empty s.cacheCapacity).run
      [.join ⟨9, 0⟩ 0 1 "bob" none 4, .join ⟨9, 0⟩ 0 2 "ann" none 4]
    s.validate = .ok () ∧ Record.decode m.encode = .ok m ∧ m.kind = .text ∧
      ∃ sent : Record, sent.payload = "hi" ∧ sent.payloadSize = 99 ∧ ¬sent.SizeTrue ∧
        ((h.dispatch ⟨9, 0⟩ s.maxPayloadBytes 1 "bob" m).registry.find? 2).map
          (·.link.mailbox.queue) = some [sent] := by
  intro s m h
  have came : Record.decode m.encode = .ok m :=
    Record.decode_encode_fitting rfl (by decide) (by decide) (by decide) (by decide)
  refine ⟨Settings.valid_standard, came, rfl, relayed ⟨9, 0⟩ s.maxPayloadBytes "bob" m, ?_⟩
  decide +kernel

end Hub

end ChatHub
