import Kobako.Vfs.Namei

/-!
# Static trees

A directory tree nothing changes while a walk is made: every question is answered the same at
every moment. Links point anywhere, also at themselves or at nothing.
-/

namespace Kobako.Vfs

/-- A directory tree, each name of a directory a dentry that stands for an entry or for nothing. -/
structure Tree (D : Type) where
  /-- The directory above. -/
  parent : D → D
  /-- Whether nothing stands above. -/
  isRoot : D → Bool
  /-- How many dentries stand above. -/
  depth : D → Nat
  /-- What stands at the name, if anything. -/
  kind : D → Option FileType
  /-- Why a directory may not be searched, none where it may. -/
  refusal : D → Option FsError
  /-- The dentry of a name in a directory. -/
  lookup : D → String → D
  /-- Where a link points. -/
  target : D → String
  /-- A dentry that is no root stands below the one above it. -/
  deeper : ∀ d, isRoot d = false → depth (parent d) < depth d
  /-- A name looked up stands in the directory asked. -/
  lookup_child : ∀ d name, parent (lookup d name) = d ∧ isRoot (lookup d name) = false
  /-- Nothing moves, so no refusal says that something did. -/
  settled : ∀ d, refusal d ≠ some .staleNetworkFileHandle

namespace Tree

variable {D : Type}

/-- What a walk is told in a tree: the same at every moment, and nothing is made. -/
def env (tree : Tree D) : Env D where
  parent _ d := tree.parent d
  isRoot := tree.isRoot
  depth _ d := tree.depth d
  kind _ d := tree.kind d
  permission _ d := match tree.refusal d with
    | some error => .error error
    | none => .ok ()
  lookup _ d name := .ok (tree.lookup d name)
  getLink _ d := .ok (tree.target d)
  seqRetry _ _ := false
  lookupFast _ d name := .ok (some (tree.lookup d name))
  mntWantWrite _ := .error .readOnlyFilesystem
  isDeaddir _ _ := false
  dAllocParallel _ d name := .ok (tree.lookup d name)
  beginLookup _ _ := .ok false
  mayOCreate _ _ _ := .error .readOnlyFilesystem
  atomicOpen _ _ _ _ := .error .notFound
  doDentryOpen _ _ _ := .ok ()
  mayOpen _ _ _ := .ok ()
  deeper _ d inner := tree.deeper d inner
  lookup_child := by
    rintro now d name c ⟨⟩
    exact tree.lookup_child d name
  lookupFast_child := by
    rintro now d name c ⟨⟩
    exact tree.lookup_child d name
  alloc_child := by
    rintro now d name c ⟨⟩
    exact tree.lookup_child d name
  spliced_child := by
    rintro now d given how opened c ⟨⟩

/-- No directory of a tree is moved. -/
theorem env_still (tree : Tree D) : tree.env.Still := fun _ _ _ _ => rfl

/-- The tree a table of paths spells, each path its names from the last to the first: what stands
there, and where it points when it is a link. -/
def ofTable (table : List (List String × FileType × String)) : Tree (List String) where
  parent path := path.tail
  isRoot path := path.isEmpty
  depth path := path.length
  kind path := (table.lookup path).map Prod.fst
  refusal _ := none
  lookup path name := name :: path
  target path := ((table.lookup path).map Prod.snd).getD ""
  deeper path inner := by
    cases path with
    | nil => cases inner
    | cons name path => simp
  lookup_child path name := ⟨rfl, rfl⟩
  settled _ := by simp

/-- A directory `d` of `secret`'s that holds a directory, a link up out of it, one out of `d`, one
to itself and one to nothing. -/
def shared : Tree (List String) := ofTable
  [([], .dir, ""), (["secret"], .regFile, ""), (["d"], .dir, ""), (["sub", "d"], .dir, ""),
    (["up", "sub", "d"], .symlink, ".."), (["out", "d"], .symlink, "sub/../../secret"),
    (["loop", "d"], .symlink, "loop"), (["dangling", "d"], .symlink, "sub/none/")]

end Tree

end Kobako.Vfs
