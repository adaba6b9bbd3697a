/-!
# Counting cache traffic

What a cache has done so far.  A lookup is a hit or a miss; a stored entry is counted when it is set and once more when
it is deleted or dropped as expired.

The counts are numbers without an upper bound.  They say what counts of 64 bits say as long as none of them, nor the sum
of the hits and misses, has come to 2^64.
-/

namespace Backlog.Cache

/-- The counts of a cache. -/
structure Tally where
  hits : Nat
  misses : Nat
  sets : Nat
  deletes : Nat
  expirations : Nat
deriving DecidableEq, Repr

namespace Tally

/-- The counts of a cache that has done nothing. -/
def empty : Tally := ⟨0, 0, 0, 0, 0⟩

instance : Inhabited Tally := ⟨empty⟩

instance : Add Tally :=
  ⟨fun a b => ⟨a.hits + b.hits, a.misses + b.misses, a.sets + b.sets, a.deletes + b.deletes,
    a.expirations + b.expirations⟩⟩

/-- A count of 64 bits as a floating-point number. -/
private def toFloat (n : Nat) : Float := n.toUInt64.toFloat

/-- The hits in a hundred lookups, zero before the first lookup. -/
def hitRate (t : Tally) : Float :=
  if t.hits + t.misses = 0 then 0 else toFloat t.hits / toFloat (t.hits + t.misses) * 100

end Tally

end Backlog.Cache
