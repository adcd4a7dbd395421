import ChatHub.Arithmetic
import ChatHub.Fault
/-!
# The cache of recent messages

The relay remembers the last few messages it sent around. An entry is found by an id made of its
sender and its second; two messages of one sender within one second share an id, and the first of
them stays.

Entries live in slots. Slots are filled in order until there are `capacity` of them, and from then
on a new entry takes the slot of the least recently used one. Recency is a number drawn from a
clock that ticks on every insertion and every refresh; looking an entry up is not a use of it.

`clear` empties the slots and forgets the ids, but keeps the slots themselves and the clock: the
entries are marked invalid and lie beyond `size` until they are filled again.
-/

namespace ChatHub

/-- One remembered message. -/
structure CacheEntry where
  id : String
  content : String
  sender : String
  /-- The second the message was sent in. -/
  createdAt : Int64
  /-- When the entry was last inserted or refreshed, in milliseconds. -/
  lastAccess : Nat
  /-- The clock's number at that moment. -/
  seq : Nat
  /-- How often the entry was inserted or refreshed. -/
  count : Nat
  valid : Bool
deriving Repr, DecidableEq

/-- A bounded cache of recent messages. -/
structure RecentCache where
  capacity : Nat
  slots : List CacheEntry
  /-- How many slots are in use. -/
  size : Nat
  /-- The slot of every id. -/
  index : List (String × Nat)
  clock : Nat
  hits : Nat
  misses : Nat
  evictions : Nat
deriving Repr, DecidableEq

namespace RecentCache

/-- The id of a sender's message in a second. -/
def makeId (sender : String) (timestamp : Int64) : String :=
  sender ++ "_" ++ toString timestamp.toInt

/-- A cache with nothing in it. -/
def empty (capacity : Nat) : RecentCache :=
  { capacity, slots := [], size := 0, index := [], clock := 0, hits := 0, misses := 0,
    evictions := 0 }

/-- An empty cache of a given capacity; it must have room for one entry at least. -/
def create (capacity : Nat) : Except Fault RecentCache :=
  if capacity = 0 then .error .cacheCapacity else .ok (empty capacity)

/-! ## Finding entries -/

/-- The slot of an id. -/
def slotOf? (c : RecentCache) (id : String) : Option Nat := c.index.lookup id

/-- The entry of an id, without counting anything. -/
def peek (c : RecentCache) (id : String) : Option CacheEntry :=
  (c.slotOf? id).bind fun slot => c.slots[slot]?.filter (·.valid)

/-- The content under an id; counts a hit or a miss. -/
def lookup (c : RecentCache) (id : String) : Option String × RecentCache :=
  match c.peek id with
  | some e => (some e.content, { c with hits := c.hits + 1 })
  | none => (none, { c with misses := c.misses + 1 })

/-! ## Adding entries -/

/-- Of the valid entries among these, the first with the smallest number, and that number; `best` is
the answer for the slots before position `i`. -/
def oldestFrom (best : Option (Nat × Nat)) (i : Nat) : List CacheEntry → Option (Nat × Nat)
  | [] => best
  | e :: rest =>
    let better : Bool :=
      e.valid && (match best with | some (_, seq) => e.seq < seq | none => true)
    oldestFrom (if better then some (i, e.seq) else best) (i + 1) rest

/-- The slot in use that was used least recently. -/
def oldest (c : RecentCache) : Nat :=
  match oldestFrom none 0 (c.slots.take c.size) with
  | some (slot, _) => slot
  | none => 0

/-- The id that has to go before another one comes, if there is no room for both. -/
def victim? (c : RecentCache) : Option String :=
  if c.size < c.capacity then none else some ((c.slots[c.oldest]?.map (·.id)).getD "")

/-- Frees a slot: a new one while there are any, else that of the least recently used entry, whose
id is forgotten. -/
def freeSlot (c : RecentCache) : Nat × RecentCache :=
  match c.victim? with
  | none => (c.size, { c with size := c.size + 1 })
  | some victim =>
    (c.oldest, { c with
      index := c.index.filter (·.1 != victim)
      evictions := c.evictions + 1 })

/-- Puts an entry in a slot, or in a new one behind the last. -/
def place (c : RecentCache) (slot : Nat) (e : CacheEntry) : RecentCache :=
  { c with
    slots := if slot < c.slots.length then c.slots.set slot e else c.slots ++ [e]
    index := (e.id, slot) :: c.index }

/-- What came of an insertion. -/
structure Insertion where
  /-- `false` if the id was there already. -/
  added : Bool
  /-- The id that had to go. -/
  evicted : Option String
deriving Repr, DecidableEq

/-- Remembers a message, and reports what came of it. An id that is there already stays as it is. -/
def insertion (c : RecentCache) (now : Nat) (sender content : String) (timestamp : Int64) :
    Insertion × RecentCache :=
  let id := makeId sender timestamp
  if (c.slotOf? id).isSome then ({ added := false, evicted := none }, c)
  else
    let evicted := c.victim?
    let (slot, c) := c.freeSlot
    let c := { c with clock := c.clock + 1 }
    ({ added := true, evicted },
      c.place slot
        { id, content, sender, createdAt := timestamp, lastAccess := now, seq := c.clock,
          count := 1, valid := true })

/-- Remembers a message; `false` if its id was there already. -/
def insert (c : RecentCache) (now : Nat) (sender content : String) (timestamp : Int64) :
    Bool × RecentCache :=
  let (report, c) := c.insertion now sender content timestamp
  (report.added, c)

/-! ## Using and forgetting entries -/

/-- Marks the entry of an id as just used. -/
def refresh (c : RecentCache) (now : Nat) (id : String) : RecentCache :=
  match c.slotOf? id with
  | none => c
  | some slot =>
    let c := { c with clock := c.clock + 1 }
    { c with slots := c.slots.modify slot fun e =>
        if e.valid then { e with lastAccess := now, seq := c.clock, count := e.count + 1 } else e }

/-- Forgets every entry, and how many lookups there were. -/
def clear (c : RecentCache) : RecentCache :=
  { c with
    slots := c.slots.map fun e => { e with valid := false, id := "", content := "", sender := "" }
    index := []
    size := 0
    hits := 0
    misses := 0 }

/-! ## Counting -/

/-- How many entries there are. -/
def length (c : RecentCache) : Nat := c.slots.countP (·.valid)

/-- Whether there are none. -/
def isEmpty (c : RecentCache) : Bool := c.length == 0

/-- How many of a hundred are so many of so many; nothing of nothing. -/
def percentage (part whole : UInt64) : Float :=
  if whole = 0 then 0.0 else part.toFloat / whole.toFloat * 100.0

/-- How many of a hundred lookups were hits, nothing before the first lookup; if the number of
lookups can be told. -/
def hitRateUnder (a : Arithmetic) (c : RecentCache) : Option Float :=
  (a.add? c.hits.toUInt64 c.misses.toUInt64).map (percentage c.hits.toUInt64)

/-- How many of a hundred lookups were hits, by a number of lookups that may have wrapped around. -/
def hitRate (c : RecentCache) : Float :=
  percentage c.hits.toUInt64 (c.hits.toUInt64 + c.misses.toUInt64)

/-- A rate is the same in every build that has it. -/
theorem hitRateUnder_eq (a : Arithmetic) (c : RecentCache) :
    c.hitRateUnder a = (a.add? c.hits.toUInt64 c.misses.toUInt64).map fun _ => c.hitRate := by
  refine Option.map_congr fun total htotal => ?_
  rw [Arithmetic.eq_add_of_add? htotal, hitRate]


end RecentCache

end ChatHub
