import ChatHub.Proofs.Record.RoundTrip
import ChatHub.Proofs.Text.Received
/-!
# Every byte of a well-written record means something

Reading is generous: it skips the gaps, stops at the first zero of a text, and makes characters of
whatever bytes there are. So many strings of bytes spell one record, and writing the record gives
back one of them. This module says which one: the string whose gaps are zero and whose texts are
valid, closed by a zero, and padded with zeros (`Canonical`).

Nothing is lost in reading such a string, because each of its fields is what writing makes of what
reading made of it: numbers since they have as many bytes as their width allows, and texts since the
first zero of a field is where its padding begins (`encodeText_decodeText`). Conversely a record
whose texts fit their fields and hold no NUL is written in this form. So the two sets correspond,
one to one.
-/

namespace ChatHub

/-! ## Numbers -/

theorem ofLittleEndian_lt (bytes : List UInt8) : ofLittleEndian bytes < 256 ^ bytes.length := by
  induction bytes with
  | nil => exact Nat.one_pos
  | cons b bytes ih =>
    have hb := b.toNat_lt
    rw [ofLittleEndian, List.length_cons, Nat.pow_succ]
    omega

/-- Bytes are determined by their number. -/
theorem littleEndian_ofLittleEndian (bytes : List UInt8) :
    littleEndian bytes.length (ofLittleEndian bytes) = bytes := by
  induction bytes with
  | nil => rfl
  | cons b bytes ih =>
    have hb := b.toNat_lt
    have hlow : (b.toNat + 256 * ofLittleEndian bytes) % 256 = b.toNat := by omega
    have hhigh : (b.toNat + 256 * ofLittleEndian bytes) / 256 = ofLittleEndian bytes := by omega
    rw [List.length_cons, littleEndian, ofLittleEndian, hlow, hhigh, ih]
    exact congrArg (· :: bytes) (UInt8.ofNat_toNat)

namespace Record

/-! ## Texts -/

/-- A field that holds a text as it should: valid, with no zero in it, and nothing but zeros behind
it, one at least. -/
def IsText (field : List UInt8) : Prop :=
  ∃ text zeros, field = text ++ List.replicate (zeros + 1) 0 ∧ text.toByteArray.IsValidUTF8 ∧
    0 ∉ text

/-- A text that fits a field of `len` bytes and leaves room for the zero that closes it. -/
def Fits (len : Nat) (s : String) : Prop := '\x00' ∉ s.toList ∧ s.utf8ByteSize < len

theorem isText_encodeText {len : Nat} {s : String} (h : Fits len s) :
    IsText (encodeText len s) := by
  obtain ⟨hnul, hfits⟩ := h
  refine ⟨Utf8.encode s, len - s.utf8ByteSize - 1, ?_, Utf8.isValidUTF8_iff.mpr ⟨s.toList, rfl⟩,
    Utf8.zero_notMem_encodeChars hnul⟩
  rw [encodeText, take_encode_of_lt hfits, Utf8.length_encode, Nat.sub_add_cancel (by omega)]

/-- Such a field spells a text that fits it, and is what writing makes of that text. -/
theorem encodeText_decodeText {field : List UInt8} (h : IsText field) :
    Fits field.length (decodeText field) ∧ encodeText field.length (decodeText field) = field := by
  obtain ⟨text, zeros, rfl, hvalid, hzero⟩ := h
  obtain ⟨cs, rfl⟩ := Utf8.isValidUTF8_iff.mp hvalid
  have hread : decodeText (Utf8.encodeChars cs ++ List.replicate (zeros + 1) 0) =
      String.ofList cs := by
    rw [decodeText, takeWhile_append_zeros, takeWhile_of_zero_notMem hzero, Utf8.decode,
      Utf8.decodeChars_encodeChars]
  have hwritten : Utf8.encode (String.ofList cs) = Utf8.encodeChars cs := by
    rw [Utf8.encode, String.toList_ofList]
  have hlength : (Utf8.encodeChars cs ++ List.replicate (zeros + 1) (0 : UInt8)).length =
      (Utf8.encodeChars cs).length + zeros + 1 := by
    rw [List.length_append, List.length_replicate, Nat.add_assoc]
  refine ⟨⟨?_, ?_⟩, ?_⟩
  · -- Bytes without a zero spell no NUL.
    rw [hread, ← Utf8.decodeChars_encodeChars cs]
    exact String.toList_ofList ▸ Utf8.nul_notMem_decodeChars hzero
  · rw [hread, hlength, ← Utf8.length_encodeChars]
    omega
  · have hkept : (Utf8.encodeChars cs).take ((Utf8.encodeChars cs).length + zeros + 1 - 1) =
        Utf8.encodeChars cs := List.take_of_length_le (by omega)
    rw [hread, encodeText, hwritten, hlength, hkept, Nat.add_assoc, Nat.add_sub_cancel_left]

/-! ## The bytes of a record, field by field -/

theorem length_slice {start len : Nat} {bytes : List UInt8} (h : start + len ≤ bytes.length) :
    (slice start len bytes).length = len := by
  rw [slice, List.length_take, List.length_drop]
  omega

/-- A number that was read from a field is written as that field. -/
theorem littleEndian_slice {start len : Nat} {bytes : List UInt8} (h : start + len ≤ bytes.length) :
    ofLittleEndian (slice start len bytes) < 256 ^ len ∧
      littleEndian len (ofLittleEndian (slice start len bytes)) = slice start len bytes := by
  have hlt := ofLittleEndian_lt (slice start len bytes)
  have hsame := littleEndian_ofLittleEndian (slice start len bytes)
  rw [length_slice h] at hlt hsame
  exact ⟨hlt, hsame⟩

theorem slice_append_slice (start len len' : Nat) (bytes : List UInt8) :
    slice start len bytes ++ slice (start + len) len' bytes = slice start (len + len') bytes := by
  rw [slice, slice, slice, ← List.drop_drop, ← List.take_add]

/-- A record's worth of bytes, cut where its fields begin. -/
theorem eq_slices {bytes : List UInt8} (h : bytes.length = size) :
    bytes = [slice 0 1 bytes, slice 1 3 bytes, slice 4 4 bytes, slice 8 4 bytes,
      slice 12 senderField bytes, slice 76 payloadField bytes, slice 4172 4 bytes,
      slice 4176 8 bytes].flatten := by
  have hglue : ∀ start len next len', next = start + len →
      slice start len bytes ++ slice next len' bytes = slice start (len + len') bytes := by
    rintro start len _ len' rfl
    exact slice_append_slice start len len' bytes
  simp only [List.flatten_cons, List.flatten_nil, List.append_nil]
  rw [hglue 4172 4 4176 8 rfl, hglue 76 payloadField 4172 _ rfl, hglue 12 senderField 76 _ rfl,
    hglue 8 4 12 _ rfl, hglue 4 4 8 _ rfl, hglue 1 3 4 _ rfl, hglue 0 1 1 _ rfl]
  exact (List.take_of_length_le (Nat.le_of_eq h)).symm

/-- The bytes of a record, written as they should be. -/
structure Canonical (bytes : List UInt8) : Prop where
  length : bytes.length = 4184
  gap : slice 1 3 bytes = List.replicate 3 0
  sender : IsText (slice 12 64 bytes)
  payload : IsText (slice 76 4096 bytes)
  lastGap : slice 4172 4 bytes = List.replicate 4 0

/-- A record whose texts fit their fields, and whose kind is one that a byte stands for. -/
structure WellFormed (r : Record) : Prop where
  kind : ∃ byte, r.kind = Kind.ofByte byte
  sender : '\x00' ∉ r.sender.toList ∧ r.sender.utf8ByteSize ≤ 63
  payload : '\x00' ∉ r.payload.toList ∧ r.payload.utf8ByteSize ≤ 4095

theorem WellFormed.canonical {r : Record} (h : r.WellFormed) : Canonical r.encode where
  length := r.length_encode
  gap := r.slice_encode 1 rfl rfl
  sender := by
    have hfield : slice 12 64 r.encode = encodeText senderField r.sender :=
      r.slice_encode 4 rfl (length_encodeText (by decide) _)
    exact hfield ▸ isText_encodeText ⟨h.sender.1, Nat.lt_succ_of_le h.sender.2⟩
  payload := by
    have hfield : slice 76 4096 r.encode = encodeText payloadField r.payload :=
      r.slice_encode 5 rfl (length_encodeText (by decide) _)
    exact hfield ▸ isText_encodeText ⟨h.payload.1, Nat.lt_succ_of_le h.payload.2⟩
  lastGap := r.slice_encode 6 rfl rfl

/-- Such bytes are read, and writing what was read gives them back. -/
theorem Canonical.encode_decode {bytes : List UInt8} (h : Canonical bytes) :
    ∃ r : Record, decode bytes = .ok r ∧ r.WellFormed ∧ r.encode = bytes := by
  have hwithin : ∀ start len, start + len ≤ 4184 → start + len ≤ bytes.length :=
    fun _ _ hle => h.length ▸ hle
  -- Field by field, what was read is written as the bytes it was read from.
  obtain ⟨hsenderFits, hsender⟩ := encodeText_decodeText h.sender
  obtain ⟨hpayloadFits, hpayload⟩ := encodeText_decodeText h.payload
  rw [length_slice (hwithin _ _ (by decide))] at hsenderFits hsender hpayloadFits hpayload
  obtain ⟨hidLt, hid⟩ := littleEndian_slice (hwithin 4 4 (by decide))
  obtain ⟨hsizeLt, hsize⟩ := littleEndian_slice (hwithin 8 4 (by decide))
  obtain ⟨htimeLt, htime⟩ := littleEndian_slice (hwithin 4176 8 (by decide))
  have hkind : slice 0 1 bytes = [(Kind.ofByte (bytes.headD 0)).toByte] := by
    rw [Kind.toByte_ofByte]
    cases bytes with
    | nil => cases h.length
    | cons b bytes => rfl
  refine ⟨_, if_pos h.length, ⟨⟨_, rfl⟩, ⟨hsenderFits.1, Nat.le_of_lt_succ hsenderFits.2⟩,
    hpayloadFits.1, Nat.le_of_lt_succ hpayloadFits.2⟩, ?_⟩
  -- The numbers pass through machine words, which have room for that many bytes.
  have hid' : (ofLittleEndian (slice 4 4 bytes)).toUInt32.toNat =
      ofLittleEndian (slice 4 4 bytes) := Nat.mod_eq_of_lt hidLt
  have hsize' : (ofLittleEndian (slice 8 4 bytes)).toUInt32.toNat =
      ofLittleEndian (slice 8 4 bytes) := Nat.mod_eq_of_lt hsizeLt
  have htime' : (ofLittleEndian (slice 4176 8 bytes)).toUInt64.toInt64.toUInt64.toNat =
      ofLittleEndian (slice 4176 8 bytes) := by
    rw [UInt64.toUInt64_toInt64]
    exact Nat.mod_eq_of_lt htimeLt
  rw [← flatten_fields]
  refine Eq.trans (congrArg List.flatten ?_) (eq_slices h.length).symm
  simp only [fields, hid', hsize', htime', hid, hsize, htime, hkind, h.gap, h.lastGap]
  exact congrArg₂ (fun sender payload => [_, _, _, _, sender, payload, _, _]) hsender hpayload

/-- **The bytes written as they should be are the encodings of the well-formed records**, and they
mean different things when they differ. They are given back by writing what was read from them. -/
theorem canonical_iff_encoded :
    (∀ bytes, Canonical bytes → ∃ r, decode bytes = .ok r ∧ r.encode = bytes) ∧
    (∀ bytes, Canonical bytes ↔ ∃ r : Record, r.WellFormed ∧ r.encode = bytes) ∧
    ∀ a b, Canonical a → Canonical b → decode a = decode b → a = b := by
  refine ⟨fun bytes h => ?_, fun bytes => ⟨fun h => ?_, ?_⟩, fun a b ha hb hab => ?_⟩
  · obtain ⟨r, hr, -, hbytes⟩ := h.encode_decode
    exact ⟨r, hr, hbytes⟩
  · obtain ⟨r, -, hwell, hbytes⟩ := h.encode_decode
    exact ⟨r, hwell, hbytes⟩
  · rintro ⟨r, hwell, rfl⟩
    exact hwell.canonical
  · obtain ⟨r, hr, -, rfl⟩ := ha.encode_decode
    obtain ⟨r', hr', -, rfl⟩ := hb.encode_decode
    rw [hr, hr'] at hab
    exact congrArg encode (Except.ok.inj hab)

/-- A record of a kind nobody knows, whose size is not that of its payload, is well formed, and so
are its bytes. -/
theorem canonical_iff_encoded_of_unknown :
    let r : Record :=
      { kind := .unknown 200, senderId := 4294967295, payloadSize := 99, sender := "zoë",
        payload := "", timestamp := -1 }
    Canonical r.encode ∧ ∃ m, decode r.encode = .ok m ∧ m.encode = r.encode := by
  intro r
  have hwell : r.WellFormed := ⟨⟨200, rfl⟩, ⟨by decide, by decide⟩, ⟨by decide, by decide⟩⟩
  have hcanonical : Canonical r.encode := (canonical_iff_encoded.2.1 _).mpr ⟨r, hwell, rfl⟩
  exact ⟨hcanonical, canonical_iff_encoded.1 _ hcanonical⟩

end Record

end ChatHub
