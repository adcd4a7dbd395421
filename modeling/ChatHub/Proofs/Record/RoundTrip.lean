import ChatHub.Record.Layout
import ChatHub.Proofs.Text.Truncation
import Mathlib.Algebra.GroupWithZero.Nat
import Mathlib.Data.List.TakeWhile
/-!
# A record survives the wire

A record is written as fields side by side. Each field has a fixed length whatever is in it, so a
reader finds it by its position (`slice_encode`), and reading a field undoes writing it. Put
together: any record at all is read back as one with the same kind of byte and the same numbers
(`decode_encode`).

Its texts are another matter. A field says where its text ends by a zero byte, so a text that has a
NUL inside loses what follows, and a text that is too long for its field loses what does not fit. A
record made here has no text that is too long; `decode_encode_make` says what is left of it. A
record made elsewhere may have a sender with no zero behind it, and that is read whole
(`decode_whole_sender`).
-/

namespace ChatHub

/-- A text up to its first NUL. -/
def Text.beforeNul (s : String) : String := String.ofList (s.toList.takeWhile (· != '\x00'))

theorem Text.beforeNul_eq_self_iff {s : String} : beforeNul s = s ↔ '\x00' ∉ s.toList := by
  have hlist : beforeNul s = s ↔ s.toList.takeWhile (· != '\x00') = s.toList := by
    rw [beforeNul, ← String.toList_inj, String.toList_ofList]
  rw [hlist]
  constructor
  · intro h hmem
    rw [← h] at hmem
    exact absurd (List.mem_takeWhile_imp hmem) (by decide)
  · intro h
    refine List.takeWhile_eq_self_iff.mpr fun c hc => bne_iff_ne.mpr ?_
    rintro rfl
    exact h hc

/-! ## Kinds -/

theorem Kind.toByte_ofByte (b : UInt8) : (Kind.ofByte b).toByte = b := by
  unfold Kind.ofByte
  split_ifs with h₁ h₂ h₃ h₄ h₅ h₆ h₇
  exacts [h₁.symm, h₂.symm, h₃.symm, h₄.symm, h₅.symm, h₆.symm, h₇.symm, rfl]

/-! ## Numbers -/

theorem length_littleEndian (width n : Nat) : (littleEndian width n).length = width := by
  induction width generalizing n with
  | zero => rfl
  | succ width ih => rw [littleEndian, List.length_cons, ih]

theorem ofLittleEndian_littleEndian (width n : Nat) :
    ofLittleEndian (littleEndian width n) = n % 256 ^ width := by
  induction width generalizing n with
  | zero => rw [Nat.pow_zero, Nat.mod_one]; rfl
  | succ width ih =>
    rw [littleEndian, ofLittleEndian, ih, Utf8.toNat_toUInt8 (Nat.mod_lt n (by decide)),
      Nat.pow_succ', Nat.mod_mul]

theorem ofLittleEndian_of_lt {width n : Nat} (h : n < 256 ^ width) :
    ofLittleEndian (littleEndian width n) = n := by
  rw [ofLittleEndian_littleEndian, Nat.mod_eq_of_lt h]

namespace Record

/-! ## Texts -/

theorem length_encodeText {len : Nat} (h : 0 < len) (s : String) :
    (encodeText len s).length = len := by
  simp only [encodeText, List.length_append, List.length_replicate, List.length_take]
  omega

theorem takeWhile_append_zeros (bytes : List UInt8) (n : Nat) :
    (bytes ++ List.replicate n 0).takeWhile (· != 0) = bytes.takeWhile (· != 0) := by
  have hzeros : (List.replicate n (0 : UInt8)).takeWhile (· != 0) = [] := by
    simp
  -- The text may fill the field and have no zero at all; both cases give the same.
  rw [List.takeWhile_append, hzeros, List.append_nil]
  split
  · rename_i hlen
    exact ((List.takeWhile_prefix _).eq_of_length hlen).symm
  · rfl

theorem takeWhile_of_zero_notMem {bytes : List UInt8} (h : 0 ∉ bytes) :
    bytes.takeWhile (· != 0) = bytes := by
  refine List.takeWhile_eq_self_iff.2 fun b hb => bne_iff_ne.2 ?_
  rintro rfl
  exact h hb

/-- A text that fits its field is written with all of its bytes. -/
theorem take_encode_of_lt {len : Nat} {s : String} (h : s.utf8ByteSize < len) :
    (Utf8.encode s).take (len - 1) = Utf8.encode s := by
  rw [List.take_of_length_le]
  rw [Utf8.length_encode]
  omega

/-- A text that fits its field is read back up to its first NUL. -/
theorem decodeText_encodeText {len : Nat} {s : String} (h : s.utf8ByteSize < len) :
    decodeText (encodeText len s) = Text.beforeNul s := by
  rw [decodeText, encodeText, take_encode_of_lt h, takeWhile_append_zeros, Utf8.encode,
    Utf8.takeWhile_encodeChars, Utf8.decode, Utf8.decodeChars_encodeChars, Text.beforeNul]

/-! ## Fields -/

/-- The fields of a record with the gaps between them, in order. -/
def fields (r : Record) : List (List UInt8) :=
  [[r.kind.toByte], List.replicate 3 0, littleEndian 4 r.senderId.toNat,
    littleEndian 4 r.payloadSize.toNat, encodeText senderField r.sender,
    encodeText payloadField r.payload, List.replicate 4 0,
    littleEndian 8 r.timestamp.toUInt64.toNat]

/-- How many bytes each of them takes. -/
def widths : List Nat := [1, 3, 4, 4, 64, 4096, 4, 8]

theorem flatten_fields (r : Record) : r.fields.flatten = r.encode := by
  simp only [fields, encode, List.flatten_cons, List.flatten_nil, List.append_nil,
    List.append_assoc, List.nil_append, List.cons_append]

theorem length_fields (r : Record) : r.fields.map List.length = widths := by
  have hsender : (encodeText senderField r.sender).length = 64 := length_encodeText (by decide) _
  have hpayload : (encodeText payloadField r.payload).length = 4096 :=
    length_encodeText (by decide) _
  simp only [fields, List.map_cons, List.map_nil, List.length_cons, List.length_nil,
    List.length_replicate, length_littleEndian, hsender, hpayload, widths]

theorem length_encode (r : Record) : r.encode.length = size := by
  rw [← flatten_fields, List.length_flatten, length_fields]
  rfl

/-- A field is where the widths of those before it put it. -/
theorem slice_encode (r : Record) (i : Nat) {field : List UInt8} {width : Nat}
    (h : r.fields[i]? = some field) (hwidth : field.length = width) :
    slice (widths.take i).sum width r.encode = field := by
  obtain ⟨hlt, hget⟩ := List.getElem?_eq_some_iff.mp h
  have hsplit : r.encode = (r.fields.take i).flatten
      ++ (field ++ (r.fields.drop (i + 1)).flatten) := by
    rw [← List.flatten_cons, ← hget, ← List.drop_eq_getElem_cons hlt, ← List.flatten_append,
      List.take_append_drop, flatten_fields]
  have hstart : (r.fields.take i).flatten.length = (widths.take i).sum := by
    rw [List.length_flatten, List.map_take, length_fields]
  rw [slice, hsplit, ← hstart, List.drop_left, ← hwidth, List.take_left]

/-! ## Records -/

/-- Every record is read back as it was written, except for what its texts lose. -/
theorem decode_encode (r : Record) :
    decode r.encode =
      .ok
        { r with
          kind := Kind.ofByte r.kind.toByte
          sender := decodeText (encodeText senderField r.sender)
          payload := decodeText (encodeText payloadField r.payload) } := by
  have hkind : r.encode.headD 0 = r.kind.toByte := rfl
  have hid : slice 4 4 r.encode = littleEndian 4 r.senderId.toNat :=
    r.slice_encode 2 rfl (length_littleEndian ..)
  have hsize : slice 8 4 r.encode = littleEndian 4 r.payloadSize.toNat :=
    r.slice_encode 3 rfl (length_littleEndian ..)
  have hsender : slice 12 senderField r.encode = encodeText senderField r.sender :=
    r.slice_encode 4 rfl (length_encodeText (by decide) _)
  have hpayload : slice 76 payloadField r.encode = encodeText payloadField r.payload :=
    r.slice_encode 5 rfl (length_encodeText (by decide) _)
  have htime : slice 4176 8 r.encode = littleEndian 8 r.timestamp.toUInt64.toNat :=
    r.slice_encode 7 rfl (length_littleEndian ..)
  have hid' : ofLittleEndian (littleEndian 4 r.senderId.toNat) = r.senderId.toNat :=
    ofLittleEndian_of_lt r.senderId.toNat_lt
  have hsize' : ofLittleEndian (littleEndian 4 r.payloadSize.toNat) = r.payloadSize.toNat :=
    ofLittleEndian_of_lt r.payloadSize.toNat_lt
  have htime' : ofLittleEndian (littleEndian 8 r.timestamp.toUInt64.toNat)
      = r.timestamp.toUInt64.toNat := ofLittleEndian_of_lt r.timestamp.toUInt64.toNat_lt
  rw [decode, if_pos r.length_encode, hkind, hid, hsize, hsender, hpayload, htime, hid', hsize',
    htime']
  simp

theorem utf8ByteSize_make_sender (kind : Kind) (sender payload : String) (timestamp : Int64) :
    (make kind sender payload timestamp).sender.utf8ByteSize ≤ maxSenderBytes :=
  Text.utf8ByteSize_truncate_le ..

theorem utf8ByteSize_make_payload (kind : Kind) (sender payload : String) (timestamp : Int64) :
    (make kind sender payload timestamp).payload.utf8ByteSize ≤ maxPayloadBytes :=
  Text.utf8ByteSize_truncate_le ..

/-- **A record made here is read back as it was**, whatever its kind, texts, id and time, except
that each text ends before its first NUL. So a record is read back unchanged exactly if there is
none. -/
theorem decode_encode_make (byte : UInt8) (sender payload : String) (senderId : UInt32)
    (timestamp : Int64) :
    let r : Record := { make (Kind.ofByte byte) sender payload timestamp with senderId }
    r.encode.length = 4184 ∧
      decode r.encode =
        .ok { r with sender := Text.beforeNul r.sender, payload := Text.beforeNul r.payload } ∧
      (decode r.encode = .ok r ↔ '\x00' ∉ r.sender.toList ∧ '\x00' ∉ r.payload.toList) := by
  intro r
  have hsender : r.sender.utf8ByteSize < senderField :=
    Nat.lt_succ_of_le (utf8ByteSize_make_sender (Kind.ofByte byte) sender payload timestamp)
  have hpayload : r.payload.utf8ByteSize < payloadField :=
    Nat.lt_succ_of_le (utf8ByteSize_make_payload (Kind.ofByte byte) sender payload timestamp)
  have hkind : Kind.ofByte r.kind.toByte = r.kind := congrArg Kind.ofByte (Kind.toByte_ofByte byte)
  have hdecode : decode r.encode =
      .ok { r with sender := Text.beforeNul r.sender, payload := Text.beforeNul r.payload } := by
    rw [decode_encode, decodeText_encodeText hsender, decodeText_encodeText hpayload, hkind]
  refine ⟨r.length_encode, hdecode, ?_⟩
  rw [hdecode, ← Text.beforeNul_eq_self_iff, ← Text.beforeNul_eq_self_iff]
  constructor
  · intro h
    have hr := Except.ok.inj h
    exact ⟨congrArg Record.sender hr, congrArg Record.payload hr⟩
  · rintro ⟨hs, hp⟩
    rw [hs, hp]

/-! ## A sender without a zero behind it -/

/-- What is read around the sender does not depend on the sender. -/
theorem decode_append {front sender back : List UInt8} (hfront : front.length = 12)
    (hsender : sender.length = senderField) (hback : back.length = 4108) :
    decode (front ++ sender ++ back) =
      .ok
        { kind := Kind.ofByte (front.headD 0)
          senderId := (ofLittleEndian (slice 4 4 front)).toUInt32
          payloadSize := (ofLittleEndian (slice 8 4 front)).toUInt32
          sender := decodeText sender
          payload := decodeText (slice 0 payloadField back)
          timestamp := (ofLittleEndian (slice 4100 8 back)).toUInt64.toInt64 } := by
  have hlength : (front ++ sender ++ back).length = size := by
    rw [List.length_append, List.length_append, hfront, hsender, hback]
    rfl
  have hbefore : ∀ start, start ≤ 8 →
      slice start 4 (front ++ sender ++ back) = slice start 4 front := by
    intro start hstart
    rw [slice, List.append_assoc, List.drop_append_of_le_length (by omega),
      List.take_append_of_le_length (by rw [List.length_drop]; omega), slice]
  have hmiddle : slice 12 senderField (front ++ sender ++ back) = sender := by
    rw [slice, List.append_assoc, ← hfront, List.drop_left, ← hsender, List.take_left]
  have hbehind : ∀ start len,
      slice (76 + start) len (front ++ sender ++ back) = slice start len back := by
    intro start len
    have hwidth : (front ++ sender).length = 76 := by
      rw [List.length_append, hfront, hsender]
      rfl
    rw [slice, ← List.drop_drop, ← hwidth, List.drop_left, slice]
  have hhead : (front ++ sender ++ back).headD 0 = front.headD 0 := by
    cases front with
    | nil => cases hfront
    | cons b front => rfl
  rw [decode, if_pos hlength, hhead, hbefore 4 (by decide), hbefore 8 (by decide), hmiddle,
    hbehind 0 payloadField, hbehind 4100 8]

/-- A sender that fills its field, with no zero behind it, is read with all of its bytes. -/
theorem decode_whole_sender {r : Record} (hr : decode r.encode = .ok r) {name : String}
    (hsize : name.utf8ByteSize = senderField) (hname : '\x00' ∉ name.toList) :
    decode (r.encode.take 12 ++ Utf8.encode name ++ r.encode.drop 76) =
      .ok { r with sender := name } := by
  have hlength := r.length_encode
  have hfront : (r.encode.take 12).length = 12 := by rw [List.length_take, hlength]; rfl
  have hback : (r.encode.drop 76).length = 4108 := by rw [List.length_drop, hlength]; rfl
  have hsender : ((r.encode.drop 12).take senderField).length = senderField := by
    rw [List.length_take, List.length_drop, hlength]
    rfl
  have hsplit : r.encode =
      r.encode.take 12 ++ (r.encode.drop 12).take senderField ++ r.encode.drop 76 := by
    rw [List.append_assoc, show 76 = 12 + senderField from rfl, ← List.drop_drop,
      List.take_append_drop, List.take_append_drop]
  have hwhole : decodeText (Utf8.encode name) = name := by
    have hkeep : (Utf8.encode name).takeWhile (· != 0) = Utf8.encode name :=
      takeWhile_of_zero_notMem (Utf8.zero_notMem_encodeChars hname)
    rw [decodeText, hkeep, Utf8.decode_encode]
  have hread := decode_append hfront hsender hback
  rw [← hsplit, hr] at hread
  rw [decode_append hfront ((Utf8.length_encode name).trans hsize) hback, hwhole]
  exact congrArg (fun m : Record => Except.ok { m with sender := name }) (Except.ok.inj hread).symm

end Record

end ChatHub
