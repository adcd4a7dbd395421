import ChatHub.Record.Basic
import ChatHub.Proofs.Text.Boundaries
/-!
# Fields are cut, and their sizes with them

Every limit on the wire is kept by one function: what does not fit is cut, and what is left is the
longest beginning that does (`Text.truncate_keeps_what_fits`). Cutting again can therefore only do
what a smaller limit would have done at once, and it does not matter in which order two limits are
applied, the relay's own and that of the field. A payload is set together with the number of its
bytes, after the cut, so that the number is true of what is kept and not of what was given.
-/

namespace ChatHub

namespace Record

/-- The record says the truth about the size of its payload. -/
def SizeTrue (r : Record) : Prop := r.payloadSize.toNat = r.payload.utf8ByteSize

instance SizeTrue.decidable (r : Record) : Decidable r.SizeTrue :=
  inferInstanceAs (Decidable (r.payloadSize.toNat = r.payload.utf8ByteSize))

/-- Whatever sets the payload sets the size. -/
theorem sizeTrue_withPayload (r : Record) (content : String) :
    (r.withPayload content).SizeTrue := by
  have hfits := Text.utf8ByteSize_truncate_le content maxPayloadBytes
  exact Nat.mod_eq_of_lt (Nat.lt_of_le_of_lt hfits (by decide))

end Record

namespace Text

/-- **A text that is cut keeps the longest beginning that fits.** The search for it asks at each
position what the byte there tells, going back from the limit byte by byte, and ends at position 0
at the latest. It stops at the first boundary, and the bytes up to there are what is kept. That is a
beginning of the text that splits no character and fits, and every other one begins it. So a cut
after a cut is one cut, to the smaller limit. And whatever a payload is set to, the record tells the
size of the payload that it then has. -/
theorem truncate_keeps_what_fits (s : String) (max : Nat) :
    (∀ n, (upTo? n s.toList).isSome = true ↔ IsBoundary (Utf8.encode s) n) ∧
      backFrom? s.toList max = some (truncate s max).toList ∧
      StopsAt (Utf8.encode s) max (truncate s max).utf8ByteSize ∧
      String.Pos.Raw.IsValid s ⟨(truncate s max).utf8ByteSize⟩ ∧
      Utf8.encode (truncate s max) = (Utf8.encode s).take (truncate s max).utf8ByteSize ∧
      LongestWithin s max (truncate s max) ∧
      (∀ limit, truncate (truncate s max) limit = truncate s (min max limit)) ∧
      ∀ r : Record, (r.withPayload s).payload = truncate s maxPayloadBytes ∧
        (r.withPayload s).SizeTrue := by
  have hkept := longestWithin_truncate s max
  have hstop := hkept.stopsAt
  have hvalid := isBoundary_encode_iff.mp hstop.boundary
  refine ⟨fun n => upTo?_isSome_iff, backFrom?_eq s max, hstop, hvalid, hkept.encode_eq_take, hkept,
    ?_, ?_⟩
  · exact truncate_truncate s max
  · exact fun r => ⟨rfl, r.sizeTrue_withPayload s⟩

/-- A limit that falls inside a character of three bytes. -/
example : truncate "aé€!" 5 = "aé" := by decide +kernel

end Text

end ChatHub
