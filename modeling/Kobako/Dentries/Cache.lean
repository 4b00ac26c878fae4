import Kobako.Dcache.Parallel
import Kobako.Parents

/-!
# The dentries of one Filesystem

The dentries and the tables that find them, as each operation under the tables' mutexes leaves
them. A table names its dentries weakly and by the address of the one above: an entry stays where
it was put when its dentry goes, and an address is free again for the next dentry. Sweeping such
entries out changes nothing that is found, and is left out.
-/

namespace Kobako.Dentries

open Kobako.Dcache (LookupState Dentry Key)

variable (τ ν ι : Type)

/-- The dentries with their addresses, those something holds, and the tables. -/
structure Cache where
  dentries : Nat → Dentry τ ν ι
  /-- `Arc::as_ptr`. -/
  address : Nat → Nat
  /-- Something holds it. -/
  live : Nat → Bool
  /-- Every number from here on is free. -/
  made : Nat
  dentryHashtable : Key ν → Option Nat
  inLookupHashtable : Key ν → Option Nat
  /-- `Inode::dentry`. -/
  inodeDentry : ι → Option Nat

variable {τ ν ι}

namespace Cache

variable (cache : Cache τ ν ι)

/-- `State::parent`. -/
def parent (dentry : Nat) : Option Nat := (cache.dentries dentry).parent

/-- `State::name`. -/
def name (dentry : Nat) : ν := (cache.dentries dentry).name

/-- `Dentry::inode`. -/
def inode (dentry : Nat) : Option ι := (cache.dentries dentry).inode

/-- `State::asked`. -/
def asked (dentry : Nat) : LookupState τ := (cache.dentries dentry).asked

/-- `Dentry::hashed`. -/
def hashed (dentry : Nat) : Bool := (cache.dentries dentry).hashed

/-- `vfs::dentry::key`. -/
def keyAt (place : Nat × ν) : Key ν := (cache.address place.1, place.2)

/-- `Dentry::parent_and_name`, a root being its own parent. -/
def parentAndName (dentry : Nat) : Nat × ν :=
  ((cache.parent dentry).getD dentry, cache.name dentry)

/-- The key a dentry stands at. -/
def key (dentry : Nat) : Key ν := cache.keyAt (cache.parentAndName dentry)

/-- `Weak::upgrade`. -/
def upgrade (held : Option Nat) : Option Nat := held.filter cache.live

/-- `Hashtable::get` of `dentry_hashtable`. -/
def find (place : Key ν) : Option Nat :=
  cache.upgrade (cache.dentryHashtable place)

/-- `Hashtable::get` of `in_lookup_hashtable`. -/
def findInLookup (place : Key ν) : Option Nat :=
  cache.upgrade (cache.inLookupHashtable place)

/-- A dentry's state changed under its mutex. -/
def set (dentry : Nat) (state : Dentry τ ν ι) : Cache τ ν ι :=
  { cache with dentries := Function.update cache.dentries dentry state }

variable [DecidableEq ν] [DecidableEq ι]

/-- `in_lookup_hashtable` without a dentry at its name. -/
def leftLookup (dentry : Nat) : Key ν → Option Nat :=
  if cache.findInLookup (cache.key dentry) = some dentry then
    Function.update cache.inLookupHashtable (cache.key dentry) none
  else cache.inLookupHashtable

/-- A table without what stands at a dentry's name, if the dentry is hashed. -/
def takenOut (dentry : Nat) (table : Key ν → Option Nat) :
    Key ν → Option Nat :=
  if cache.hashed dentry then Function.update table (cache.key dentry) none else table

/-- `Dentry::rehash`. -/
def rehash (dentry : Nat) : Cache τ ν ι :=
  { cache.set dentry { cache.dentries dentry with asked := .answered, hashed := true } with
    inLookupHashtable := cache.leftLookup dentry
    dentryHashtable :=
      if cache.hashed dentry then cache.dentryHashtable
      else Function.update cache.dentryHashtable (cache.key dentry) (some dentry) }

/-- A lookup begun by `begin_lookup`. -/
def beginAsk (dentry : Nat) (thread : τ) : Cache τ ν ι :=
  cache.set dentry { cache.dentries dentry with asked := .asking thread }

/-- `Dentry::lookup_done`. -/
def lookupDone (dentry : Nat) : Cache τ ν ι :=
  if (cache.asked dentry).inLookup then
    { cache.set dentry { cache.dentries dentry with asked := .unasked } with
      inLookupHashtable := cache.leftLookup dentry }
  else cache

/-- `Dentries::unhash`, which `invalidate` drops a dentry with; what is kept beneath it is left to
its holders. -/
def unhash (dentry : Nat) : Cache τ ν ι :=
  { cache.set dentry { cache.dentries dentry with hashed := false } with
    dentryHashtable := cache.takenOut dentry cache.dentryHashtable }

/-- `Dentry::__instantiate`. -/
def instantiate (isDir : ι → Bool) (cache : Cache τ ν ι) (dentry : Nat) (inode : ι) :
    Cache τ ν ι :=
  match cache.inode dentry with
  | some _ => cache
  | none =>
    { cache.set dentry { cache.dentries dentry with inode := some inode } with
      inodeDentry :=
        if isDir inode then Function.update cache.inodeDentry inode (some dentry)
        else cache.inodeDentry }

/-- `Dentry::add`, with `Inode::add_hashed`. -/
def add (isDir : ι → Bool) (cache : Cache τ ν ι) (dentry : Nat) : Option ι → Cache τ ν ι
  | some inode => (cache.instantiate isDir dentry inode).rehash dentry
  | none => cache.rehash dentry

/-- The dentry other than one given that a directory already stands at. -/
def findAlias (inode : ι) (dentry : Nat) : Option Nat :=
  (cache.upgrade (cache.inodeDentry inode)).filter (· ≠ dentry)

/-- `Inode::find_alias_or_add`. -/
def findAliasOrAdd (isDir : ι → Bool) (cache : Cache τ ν ι) (inode : ι) (dentry : Nat) :
    Cache τ ν ι × Option Nat :=
  match cache.findAlias inode dentry with
  | some found => (cache, some found)
  | none => (cache.add isDir dentry (some inode), none)

/-- An address none of the dentries something holds is at. -/
def FreeAddress (address : Nat) : Prop :=
  ∀ dentry < cache.made, cache.live dentry = true → cache.address dentry ≠ address

instance (cache : Cache τ ν ι) (address : Nat) : Decidable (cache.FreeAddress address) :=
  inferInstanceAs (Decidable (∀ dentry < cache.made, _))

/-- The dentry of a new name in lookup for a thread, as `alloc_parallel` makes it. -/
def make (thread : τ) (place : Nat × ν) (address : Nat) : Cache τ ν ι :=
  { cache with
    dentries := Function.update cache.dentries cache.made
      { parent := some place.1, name := place.2, inode := none, asked := .allocated thread,
        hashed := false }
    address := Function.update cache.address cache.made address
    live := Function.update cache.live cache.made true
    made := cache.made + 1
    inLookupHashtable :=
      Function.update cache.inLookupHashtable (cache.keyAt place) (some cache.made) }

/-- The move `unalias` and `move_dentry` end in. -/
def moveTo (dentry : Nat) (place : Nat × ν) : Cache τ ν ι :=
  { cache.set dentry
      { cache.dentries dentry with hashed := true, parent := some place.1, name := place.2 } with
    dentryHashtable :=
      Function.update (cache.takenOut dentry cache.dentryHashtable) (cache.keyAt place)
        (some dentry) }

/-- `Dentries::exchange`. -/
def exchange (first second : Nat) : Cache τ ν ι :=
  let one := cache.dentries first
  let other := cache.dentries second
  let out := cache.takenOut second (cache.takenOut first cache.dentryHashtable)
  { (cache.set first { one with parent := other.parent, name := other.name, hashed := true }).set
      second { other with parent := one.parent, name := one.name, hashed := true } with
    dentryHashtable :=
      Function.update (Function.update out (cache.key second) (some first)) (cache.key first)
        (some second) }

/-- The last holder of a dentry lets it go. -/
def drop (dentry : Nat) : Cache τ ν ι :=
  { cache with live := Function.update cache.live dentry false }

/-- Nothing that is held holds a dentry from beneath. -/
def Childless (dentry : Nat) : Prop :=
  ∀ lower < cache.made, cache.live lower = true → cache.parent lower ≠ some dentry

instance (cache : Cache τ ν ι) (dentry : Nat) : Decidable (cache.Childless dentry) :=
  inferInstanceAs (Decidable (∀ lower < cache.made, _))

/-- `d_ancestor`, none while its loop goes on. -/
def dAncestor (rounds ancestor dentry : Nat) : Option Bool :=
  ancestorWithin cache.parent ancestor rounds dentry

/-- `Dentry::is_subdir`, none while its loop goes on. -/
def isSubdir (rounds dentry ancestor : Nat) : Option Bool :=
  if dentry = ancestor then some true else cache.dAncestor rounds ancestor dentry

/-- `Dentry::names`, none while its loop goes on. -/
def names (rounds dentry : Nat) : Option (List ν) :=
  (climb cache.parent cache.name rounds dentry).map List.reverse

end Cache

end Kobako.Dentries
