import ChatHub.Proofs.Identity.Handover
/-!
# How an introduction is cut

A stream has no packets. What a peer sends in one go may come in any number of pieces, and the relay
reads its introduction with one receive: the first piece, as far as there is space for it, is all
that the name is taken from. No byte is lost by that (`append_unread_of_receive`), but where the
name ends depends on the piece.

If the zero byte that closes the name is in the first piece, the name is complete, and whatever
comes after the zero is still to come, be it left over or unread. How the rest was cut makes no
difference. If the first piece ends before the zero, it is taken for the whole name, as if the peer
had typed it by hand, and the rest of the name goes to where the records are read. The two cases are
told apart by the length of the first piece alone (`readIdentity_of_pieces`). A cut right before the
zero is no exception: the name comes out right, but the zero itself is then the first byte of the
records.
-/

namespace ChatHub

/-! ## Bytes on their way -/

/-- The bytes that arrive with an event. -/
def PeerEvent.bytes : PeerEvent → List UInt8
  | .data bytes => bytes
  | _ => []

namespace Peer

/-- The bytes that were not received yet. -/
def unread (p : Peer) : List UInt8 := p.script.flatMap PeerEvent.bytes

/-- A peer whose bytes arrive in pieces, each so many milliseconds after the one before. -/
def delivering (pieces : List (Nat × List UInt8)) : Peer :=
  ofScript (pieces.flatMap fun (wait, piece) => [.delay wait, .data piece])

theorem unread_delivering (pieces : List (Nat × List UInt8)) :
    (delivering pieces).unread = pieces.flatMap (·.2) := by
  induction pieces with
  | nil => rfl
  | cons piece pieces ih =>
    show [] ++ (piece.2 ++ (delivering pieces).unread) = piece.2 ++ pieces.flatMap (·.2)
    rw [ih, List.nil_append]

theorem append_unread_of_receiveBy {deadline now : Nat} {due : Option Nat}
    {script : List PeerEvent} {got : List UInt8} {p : Peer}
    (h : receiveBy deadline now due script = (.bytes got, p)) :
    got ++ p.unread = script.flatMap PeerEvent.bytes := by
  induction script generalizing now due with
  | nil => cases h
  | cons e script ih =>
    cases e with
    | data bytes =>
      obtain ⟨hgot, rfl⟩ := Prod.mk.inj h
      rw [← Received.bytes.inj hgot]
      show bytes.take receiveSpace ++ List.flatMap PeerEvent.bytes (if _ then _ else _) = _
      split
      · rename_i hfits
        rw [List.take_of_length_le hfits, List.flatMap_cons]
        rfl
      · rw [List.flatMap_cons, List.flatMap_cons, ← List.append_assoc]
        exact congrArg (· ++ _) (List.take_append_drop receiveSpace bytes)
    | delay ms =>
      rw [receiveBy] at h
      split at h
      · exact ih h
      · cases h
    | failure text => cases h
    | eof =>
      obtain ⟨hgot, rfl⟩ := Prod.mk.inj h
      rw [← Received.bytes.inj hgot]
      rfl

/-- A receive takes bytes from the front and leaves the others. -/
theorem append_unread_of_receive {p p' : Peer} {timeout : Nat} {got : List UInt8}
    (h : p.receive timeout = (.bytes got, p')) : got ++ p'.unread = p.unread :=
  append_unread_of_receiveBy h

/-- A first piece that comes in time is received, as far as there is space. -/
theorem receive_delivering {wait timeout : Nat} (h : wait ≤ timeout) (first : List UInt8)
    (later : List (Nat × List UInt8)) :
    ((delivering ((wait, first) :: later)).receive timeout).1
      = .bytes (first.take receiveSpace) := by
  have hdue : 0 + wait ≤ 0 + timeout := Nat.add_le_add_left h 0
  show (receiveBy (0 + timeout) 0 none (.delay wait :: .data first :: _)).1 = _
  rw [receiveBy, Option.getD_none, if_pos hdue, receiveBy]

end Peer

/-! ## What a piece says -/

namespace Identity

theorem splitAtZero_of_notMem {raw : List UInt8} (h : 0 ∉ raw) : splitAtZero raw = (raw, []) := by
  have hall : ∀ b ∈ raw, (b != 0) = true := fun b hb => bne_iff_ne.2 fun he => h (he ▸ hb)
  rw [splitAtZero, List.takeWhile_eq_self_iff.2 hall, List.dropWhile_eq_nil_iff.2 hall,
    List.drop_nil]

/-- Wherever an introduction is cut, it is behind the zero or before it. -/
theorem cut_of_append_eq {got unread raw rest : List UInt8}
    (h : got ++ unread = raw ++ 0 :: rest) :
    (∃ leftover, got = raw ++ 0 :: leftover ∧ leftover ++ unread = rest) ∨
      ∃ missing, raw = got ++ missing ∧ unread = missing ++ 0 :: rest := by
  rcases List.append_eq_append_iff.1 h with ⟨missing, hraw, hunread⟩ | ⟨more, hgot, hrest⟩
  · exact .inr ⟨missing, hraw, hunread⟩
  · cases more with
    | nil =>
      rw [List.append_nil] at hgot
      exact .inr ⟨[], by rw [hgot, List.append_nil], hrest.symm⟩
    | cons b leftover =>
      obtain ⟨rfl, hbehind⟩ := List.cons.inj hrest
      exact .inl ⟨leftover, hgot, hbehind.symm⟩

/-- A name without a zero is read as if there were one behind it. -/
theorem parse_append_zero {raw : List UInt8} (h : 0 ∉ raw) (max : Nat) :
    parse (raw ++ [0]) max = parse raw max := by
  rw [parse, parse, splitAtZero_append h, splitAtZero_of_notMem h]

/-- What is read from a name without a zero is the name, with nothing left over. -/
theorem eq_of_parse {raw : List UInt8} {max : Nat} {identity : Identity} (h : 0 ∉ raw)
    (hparse : parse raw max = .ok identity) : identity = ⟨userOf raw, []⟩ := by
  rw [parse_eq_ok_iff, splitAtZero_of_notMem h] at hparse
  exact hparse.1

end Identity

namespace Peer

theorem readIdentity_of_receive {p p' : Peer} {got : List UInt8} {max timeout : Nat}
    (hgot : got ≠ []) (h : p.receive timeout = (.bytes got, p')) :
    p.readIdentity max timeout = (Identity.parse got max, p') := by
  obtain ⟨b, bs, rfl⟩ := List.exists_cons_of_ne_nil hgot
  rw [readIdentity, h]

/-- **One receive decides.** Whatever the pieces in which a named introduction and the bytes behind
it arrive, as long as the first comes in time: if the first piece reaches the zero, the peer is
known by its name, and what is left over and what is still to come are together the bytes behind the
zero; and only then. Otherwise the peer is judged by the first piece, as if a zero came after it;
nothing is left over, and the rest of the introduction is still to come. -/
theorem readIdentity_of_pieces {raw rest first : List UInt8} {wait max timeout : Nat}
    {later : List (Nat × List UInt8)} (hzero : 0 ∉ raw) (hspace : raw.length < receiveSpace)
    (hnamed : (Identity.userOf raw).isEmpty = false)
    (hfits : (Identity.userOf raw).utf8ByteSize ≤ max) (hfirst : first ≠ [])
    (hwait : wait ≤ timeout) (hstream : first ++ later.flatMap (·.2) = raw ++ 0 :: rest) :
    ∃ answer p, (delivering ((wait, first) :: later)).readIdentity max timeout = (answer, p) ∧
      ((∃ leftover, answer = .ok ⟨Identity.userOf raw, leftover⟩ ∧ leftover ++ p.unread = rest) ↔
        raw.length < first.length) ∧
      (first.length ≤ raw.length →
        answer = Identity.parse (first ++ [0]) max ∧
        (∀ identity, answer = .ok identity → identity = ⟨Identity.userOf first, []⟩) ∧
        p.unread = raw.drop first.length ++ 0 :: rest) := by
  obtain ⟨p, hreceive⟩ : ∃ p, (delivering ((wait, first) :: later)).receive timeout
      = (.bytes (first.take receiveSpace), p) :=
    ⟨_, Prod.ext (receive_delivering hwait first later) rfl⟩
  have hgot : first.take receiveSpace ≠ [] := by
    rw [ne_eq, List.take_eq_nil_iff, not_or]
    exact ⟨by decide, hfirst⟩
  have hbytes : first.take receiveSpace ++ p.unread = raw ++ 0 :: rest := by
    rw [append_unread_of_receive hreceive, unread_delivering]
    exact hstream
  refine ⟨_, p, readIdentity_of_receive hgot hreceive, ?_⟩
  rcases Identity.cut_of_append_eq hbytes with
    ⟨leftover, hreaches, hrest⟩ | ⟨missing, hmissing, hunread⟩
  · have hlonger : raw.length < first.length := by
      have hlength := congrArg List.length hreaches
      rw [List.length_take, List.length_append, List.length_cons] at hlength
      omega
    refine ⟨iff_of_true ⟨leftover, ?_, hrest⟩ hlonger, fun h => absurd hlonger (Nat.not_lt.2 h)⟩
    rw [hreaches]
    exact Identity.parse_append hzero hnamed hfits leftover
  · have hshort : (first.take receiveSpace).length ≤ raw.length :=
      hmissing ▸ (List.prefix_append _ missing).length_le
    have hwhole : first.take receiveSpace = first := by
      rw [List.length_take] at hshort
      exact List.take_of_length_le (by omega)
    rw [hwhole] at hmissing hshort ⊢
    have hzero' : 0 ∉ first := fun h => hzero (hmissing ▸ List.mem_append_left _ h)
    refine ⟨iff_of_false ?_ (Nat.not_lt.2 hshort), fun _ => ⟨?_, ?_, ?_⟩⟩
    · rintro ⟨leftover, hok, hrest⟩
      obtain ⟨-, rfl⟩ := Identity.mk.inj (Identity.eq_of_parse hzero' hok)
      -- The zero is among the unread bytes, so there are more of these than come behind it.
      have hlength := congrArg List.length (hunread.symm.trans hrest)
      rw [List.length_append, List.length_cons] at hlength
      omega
    · exact (Identity.parse_append_zero hzero' max).symm
    · intro identity hok
      exact Identity.eq_of_parse hzero' hok
    · rw [hunread, hmissing, List.drop_left]

/-- A name that ends in a line break, and the beginning of a record. The first cut is behind the
zero, the second within a character of the name, of which each side gets one byte. -/
theorem readIdentity_of_pieces_around_a_character :
    let raw := Utf8.encode "Ren\u00e9\r\n"
    let rest : List UInt8 := [1, 0, 0]
    let behind := delivering [(20, raw ++ [0, 1]), (5, [0, 0])]
    let within := delivering [(20, raw.take 4), (5, raw.drop 4 ++ 0 :: rest)]
    0 ∉ raw ∧ raw.length < receiveSpace ∧ Identity.userOf raw = "Ren\u00e9" ∧
      (∃ leftover p, behind.readIdentity 63 1000 = (.ok ⟨"Ren\u00e9", leftover⟩, p) ∧
        leftover ++ p.unread = rest) ∧
      ∃ p, within.readIdentity 63 1000 = (.ok ⟨"Ren\ufffd", []⟩, p) ∧
        p.unread = raw.drop 4 ++ 0 :: rest := by
  intro raw rest behind within
  have hzero : 0 ∉ raw := by decide
  have hspace : raw.length < receiveSpace := by decide
  have huser : Identity.userOf raw = "Ren\u00e9" := by decide +kernel
  have hnamed : (Identity.userOf raw).isEmpty = false := by rw [huser]; decide
  have hfits : (Identity.userOf raw).utf8ByteSize ≤ 63 := by rw [huser]; decide
  refine ⟨hzero, hspace, huser, ?_, ?_⟩
  · obtain ⟨answer, p, hread, hreaches, -⟩ :=
      @readIdentity_of_pieces raw rest (raw ++ [0, 1]) 20 63 1000 [(5, [0, 0])]
        hzero hspace hnamed hfits (by decide) (by decide) rfl
    obtain ⟨leftover, rfl, hrest⟩ := hreaches.2 (by decide)
    rw [huser] at hread
    exact ⟨leftover, p, hread, hrest⟩
  · obtain ⟨answer, p, hread, -, hshort⟩ :=
      @readIdentity_of_pieces raw rest (raw.take 4) 20 63 1000 [(5, raw.drop 4 ++ 0 :: rest)]
        hzero hspace hnamed hfits (by decide) (by decide) rfl
    obtain ⟨hanswer, -, hunread⟩ := hshort (by decide)
    have hcut : Identity.userOf (raw.take 4) = "Ren\ufffd" := by decide +kernel
    rw [Identity.parse_append (by decide) (by rw [hcut]; decide) (by rw [hcut]; decide), hcut]
      at hanswer
    exact ⟨p, hanswer ▸ hread, hunread⟩

/-- The same six bytes in one piece and in two. -/
theorem readIdentity_depends_on_the_cut :
    let whole := delivering [(0, Utf8.encode "alice" ++ [0])]
    let cut := delivering [(0, Utf8.encode "al"), (0, Utf8.encode "ice" ++ [0])]
    whole.unread = cut.unread ∧
      (∃ p, whole.readIdentity 63 1000 = (.ok ⟨"alice", []⟩, p) ∧ p.unread = []) ∧
      ∃ p, cut.readIdentity 63 1000 = (.ok ⟨"al", []⟩, p) ∧
        p.unread = Utf8.encode "ice" ++ [0] := by
  intro whole cut
  have halice : Identity.userOf (Utf8.encode "alice") = "alice" := by decide +kernel
  have hal : Identity.userOf (Utf8.encode "al") = "al" := by decide +kernel
  have hwhole : whole.receive 1000 = (.bytes (Utf8.encode "alice" ++ [0]), ofScript []) := by
    decide
  have hcut : cut.receive 1000 =
      (.bytes (Utf8.encode "al"), ofScript [.delay 0, .data (Utf8.encode "ice" ++ [0])]) := by
    decide
  have hunread : (ofScript [.delay 0, .data (Utf8.encode "ice" ++ [0])]).unread
      = Utf8.encode "ice" ++ [0] := by decide
  refine ⟨by decide, ⟨ofScript [], ?_, rfl⟩, ⟨_, ?_, hunread⟩⟩
  · rw [readIdentity_of_receive (by decide) hwhole,
      Identity.parse_append (by decide) (by rw [halice]; decide) (by rw [halice]; decide), halice]
  · rw [readIdentity_of_receive (by decide) hcut, ← Identity.parse_append_zero (by decide),
      Identity.parse_append (by decide) (by rw [hal]; decide) (by rw [hal]; decide), hal]

end Peer

end ChatHub
