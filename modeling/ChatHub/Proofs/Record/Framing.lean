import ChatHub.Record.Framing
import Mathlib.Data.List.Basic
/-!
# The pieces of a stream do not matter

What a stream of bytes means is plain when all of it is there: its blocks of 4184 bytes, one after
another, are its records, and whatever is left belongs to none (`blocks`, `remnant`). A connection
delivers the stream in pieces, and a framer works on whatever happens to be there. It comes to the
same (`feedAll_eq`).

A stream is short, or it begins with a block. That is all there is to it, and every induction here
goes that way (`blockInduction`).
-/

namespace ChatHub

namespace Record

/-- The consecutive blocks of a stream that are records. -/
def blocks (bytes : List UInt8) : List (List UInt8) :=
  (List.range (bytes.length / size)).map fun i => slice (i * size) size bytes

/-- The bytes of a stream that belong to no complete block. -/
def remnant (bytes : List UInt8) : List UInt8 := bytes.drop (bytes.length / size * size)

theorem length_remnant_lt (bytes : List UInt8) : (remnant bytes).length < size := by
  rw [remnant, List.length_drop, Nat.mul_comm, ← Nat.mod_eq_sub_mul_div]
  exact Nat.mod_lt _ (by decide)

/-! ## A stream is short, or it begins with a block -/

theorem blockInduction {P : List UInt8 → Prop} (short : ∀ bytes, bytes.length < size → P bytes)
    (block : ∀ b rest, b.length = size → P rest → P (b ++ rest)) (bytes : List UInt8) :
    P bytes := by
  induction hn : bytes.length using Nat.strongRecOn generalizing bytes with
  | ind n ih =>
    by_cases hlt : bytes.length < size
    · exact short bytes hlt
    · have htake : (bytes.take size).length = size :=
        List.length_take_of_le (Nat.not_lt.mp hlt)
      have hdrop : (bytes.drop size).length < n := by
        rw [List.length_drop, hn]
        have hpos : 0 < size := by decide
        omega
      have hrest := ih _ hdrop (bytes.drop size) rfl
      exact List.take_append_drop size bytes ▸ block _ _ htake hrest

theorem blocks_of_short {bytes : List UInt8} (h : bytes.length < size) : blocks bytes = [] := by
  rw [blocks, Nat.div_eq_of_lt h]
  rfl

theorem remnant_of_short {bytes : List UInt8} (h : bytes.length < size) :
    remnant bytes = bytes := by
  rw [remnant, Nat.div_eq_of_lt h, Nat.zero_mul, List.drop_zero]

theorem length_div_of_block {b rest : List UInt8} (h : b.length = size) :
    (b ++ rest).length / size = rest.length / size + 1 := by
  rw [List.length_append, h, Nat.add_div_left _ (by decide)]

theorem drop_of_block {b rest : List UInt8} (h : b.length = size) (n : Nat) :
    (b ++ rest).drop ((n + 1) * size) = rest.drop (n * size) := by
  have hone : (b ++ rest).drop size = rest := by rw [← h, List.drop_left]
  rw [Nat.succ_mul, Nat.add_comm, ← List.drop_drop, hone]

theorem blocks_of_block {b rest : List UInt8} (h : b.length = size) :
    blocks (b ++ rest) = b :: blocks rest := by
  have hfirst : slice (0 * size) size (b ++ rest) = b := by
    rw [slice, Nat.zero_mul, List.drop_zero, ← h, List.take_left]
  have hnext : ∀ i, slice ((i + 1) * size) size (b ++ rest) = slice (i * size) size rest := by
    intro i
    rw [slice, slice, drop_of_block h]
  rw [blocks, length_div_of_block h, List.range_succ_eq_map, List.map_cons, hfirst, List.map_map]
  exact congrArg (b :: ·) (List.map_congr_left fun i _ => hnext i)

theorem remnant_of_block {b rest : List UInt8} (h : b.length = size) :
    remnant (b ++ rest) = remnant rest := by
  rw [remnant, length_div_of_block h, drop_of_block h, remnant]

/-- What is left of a stream goes on with what comes after. -/
theorem blocks_append (xs ys : List UInt8) :
    blocks (xs ++ ys) = blocks xs ++ blocks (remnant xs ++ ys) := by
  induction xs using blockInduction with
  | short xs h => rw [blocks_of_short h, remnant_of_short h, List.nil_append]
  | block b xs h ih =>
    rw [List.append_assoc, blocks_of_block h, blocks_of_block h, remnant_of_block h, ih,
      List.cons_append]

theorem remnant_append (xs ys : List UInt8) :
    remnant (xs ++ ys) = remnant (remnant xs ++ ys) := by
  induction xs using blockInduction with
  | short xs h => rw [remnant_of_short h]
  | block b xs h ih => rw [List.append_assoc, remnant_of_block h, remnant_of_block h, ih]

theorem length_of_mem_blocks {bytes b : List UInt8} (h : b ∈ blocks bytes) : b.length = size := by
  induction bytes using blockInduction with
  | short bytes hs =>
    rw [blocks_of_short hs] at h
    exact absurd h List.not_mem_nil
  | block c rest hc ih =>
    rw [blocks_of_block hc] at h
    rcases List.mem_cons.mp h with rfl | hrest
    · exact hc
    · exact ih hrest

theorem decode_of_length {bytes : List UInt8} (h : bytes.length = size) :
    ∃ r, decode bytes = .ok r := ⟨_, if_pos h⟩

theorem exists_records (bytes : List UInt8) :
    ∃ rs : List Record, (blocks bytes).map decode = rs.map .ok := by
  have hall : ∀ b ∈ blocks bytes, ∃ r, decode b = .ok r := fun b hb =>
    decode_of_length (length_of_mem_blocks hb)
  generalize blocks bytes = bs at hall
  induction bs with
  | nil => exact ⟨[], rfl⟩
  | cons b bs ih =>
    obtain ⟨r, hr⟩ := hall b List.mem_cons_self
    obtain ⟨rs, hrs⟩ := ih fun c hc => hall c (List.mem_cons_of_mem b hc)
    exact ⟨r :: rs, by rw [List.map_cons, List.map_cons, hr, hrs]⟩

end Record

namespace Framer

open Record (blocks remnant)

def feedAll (f : Framer) : List (List UInt8) → List (Except Fault Record) × Framer
  | [] => ([], f)
  | piece :: pieces =>
    ((f.feed piece).1 ++ ((f.feed piece).2.feedAll pieces).1, ((f.feed piece).2.feedAll pieces).2)

/-! ## Taking what is there -/

theorem drain_of_short {bytes : List UInt8} (h : bytes.length < Record.size) :
    drain ⟨bytes⟩ = ([], ⟨bytes⟩) := by
  have hnext : next? ⟨bytes⟩ = none := if_pos h
  rw [drain]
  split
  · rfl
  · rename_i hsome
    rw [hnext] at hsome
    cases hsome

theorem drain_of_block {b rest : List UInt8} (h : b.length = Record.size) :
    drain ⟨b ++ rest⟩ = (Record.decode b :: (drain ⟨rest⟩).1, (drain ⟨rest⟩).2) := by
  have hlen : ¬ (b ++ rest).length < Record.size := by
    rw [List.length_append, h]
    omega
  have hnext : next? ⟨b ++ rest⟩ = some (Record.decode b, ⟨rest⟩) := by
    rw [next?, if_neg hlen, ← h, List.take_left, List.drop_left]
  rw [drain]
  split
  · rename_i hnone
    rw [hnext] at hnone
    cases hnone
  · rename_i hsome
    rw [hnext] at hsome
    cases hsome
    rfl

theorem drain_eq (bytes : List UInt8) :
    drain ⟨bytes⟩ = ((blocks bytes).map Record.decode, ⟨remnant bytes⟩) := by
  induction bytes using Record.blockInduction with
  | short bytes h =>
    rw [drain_of_short h, Record.blocks_of_short h, Record.remnant_of_short h, List.map_nil]
  | block b rest h ih =>
    rw [drain_of_block h, ih, Record.blocks_of_block h, Record.remnant_of_block h, List.map_cons]

/-- Whatever has been kept, pieces bring what all the bytes together bring. -/
theorem feedAll_of_short {bytes : List UInt8} (h : bytes.length < Record.size)
    (pieces : List (List UInt8)) :
    feedAll ⟨bytes⟩ pieces
      = ((blocks (bytes ++ pieces.flatten)).map Record.decode,
          ⟨remnant (bytes ++ pieces.flatten)⟩) := by
  induction pieces generalizing bytes with
  | nil =>
    rw [feedAll, List.flatten_nil, List.append_nil, Record.blocks_of_short h,
      Record.remnant_of_short h, List.map_nil]
  | cons piece pieces ih =>
    -- What is kept after a piece is short again, which is what the induction asks for.
    have hfeed : feed ⟨bytes⟩ piece
        = ((blocks (bytes ++ piece)).map Record.decode, ⟨remnant (bytes ++ piece)⟩) :=
      drain_eq (bytes ++ piece)
    rw [feedAll, hfeed, ih (Record.length_remnant_lt _), List.flatten_cons, ← List.append_assoc,
      Record.blocks_append (bytes ++ piece), Record.remnant_append (bytes ++ piece),
      List.map_append]

/-! ## The end of input -/

theorem atEnd_of_short {bytes : List UInt8} (h : bytes.length < Record.size) :
    atEnd ⟨bytes⟩ =
      if bytes = [] then .ok none else .error (.transport "bytes remaining on stream") := by
  have hnext : next? ⟨bytes⟩ = none := if_pos h
  rw [atEnd, hnext]
  cases bytes <;> rfl

/-- **A stream is cut into the same records, whatever pieces it comes in**: after any number of
pieces, empty ones included, they are the records of the blocks that have arrived, and none of them
is a failure; what is kept is exactly what belongs to no complete block; and if the input ends
there, it ends cleanly if nothing was kept, and is cut off otherwise. -/
theorem feedAll_eq (pieces : List (List UInt8)) :
    (empty.feedAll pieces).1 = (blocks pieces.flatten).map Record.decode ∧
      (∃ rs : List Record, (empty.feedAll pieces).1 = rs.map .ok) ∧
      (empty.feedAll pieces).2.buffer = remnant pieces.flatten ∧
      (remnant pieces.flatten).length < Record.size ∧
      (empty.feedAll pieces).2.next? = none ∧
      (empty.feedAll pieces).2.atEnd =
        if remnant pieces.flatten = [] then .ok none
        else .error (.transport "bytes remaining on stream") := by
  have hnothing : ([] : List UInt8).length < Record.size := by decide
  have hrun : empty.feedAll pieces
      = ((blocks pieces.flatten).map Record.decode, ⟨remnant pieces.flatten⟩) :=
    feedAll_of_short hnothing pieces
  have hlt := Record.length_remnant_lt pieces.flatten
  rw [hrun]
  exact ⟨rfl, Record.exists_records _, rfl, hlt, if_pos hlt, atEnd_of_short hlt⟩

end Framer

end ChatHub
