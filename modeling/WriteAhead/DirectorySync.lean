/-
# Which directories are synced

A journal's new length lives in its directory's metadata, so the directory is synced too, except
on remote file systems, whose protocols may not have such a sync or may stall on it.

* `ofFileSystem_eq_notAllowed_iff` : the decision hangs on the lower half of the type word alone.
-/

namespace WriteAhead

/-- Whether a directory's metadata may be synced. -/
inductive SyncPolicy where
  | allowed
  | notAllowed
deriving DecidableEq, Repr

namespace SyncPolicy

/-- The type number of the Network File System. -/
def nfs : UInt32 := 0x6969

/-- The type number of SMB before its second version. -/
def smb : UInt32 := 0x517B

/-- The type number of CIFS. -/
def cifs : UInt32 := 0xFF534D42

/-- The type number of SMB version 2. -/
def smb2 : UInt32 := 0xFE534D42

/-- The type numbers of remote file systems. -/
def remote : List UInt32 := [nfs, cifs, smb, smb2]

/-- The policy for a file system with a given type number. -/
def ofMagic (magic : UInt32) : SyncPolicy :=
  if magic ∈ remote then notAllowed else allowed

/-- The policy for a file system whose type is reported in a 64-bit word. -/
def ofFileSystem (word : UInt64) : SyncPolicy :=
  ofMagic word.toUInt32

/-- The name of a policy. -/
def name : SyncPolicy → String
  | allowed => "Allowed"
  | notAllowed => "NotAllowed"

theorem ofMagic_eq_notAllowed_iff (magic : UInt32) :
    ofMagic magic = notAllowed ↔ magic ∈ remote := by
  unfold ofMagic
  split <;> simp_all

theorem ofFileSystem_eq_notAllowed_iff (word : UInt64) :
    ofFileSystem word = notAllowed ↔ word.toUInt32 ∈ remote :=
  ofMagic_eq_notAllowed_iff _

end SyncPolicy

end WriteAhead
