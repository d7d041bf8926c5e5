import YurtKernel.Vfs.MountTable

/-! The methods of the mount table as data.

    A method of the table is a method of one of its backends, chosen by a path or a mount id. -/

namespace Yurt
variable {σ : Type}

/-- The methods that may change a mount table. -/
inductive VfsOp where
  | openPath (path : Bytes) (flags : Nat)
  | openResult (path : Bytes) (flags : Nat)
  | truncate (id : MountId) (inode : Inode)
  | setLen (id : MountId) (inode : Inode) (length : Nat)
  | write (id : MountId) (inode : Inode) (offset : Nat) (payload : Bytes)
  | unlink (path : Bytes)
  | symlink (target path : Bytes)
  | mkdir (path : Bytes)
  | rmdir (path : Bytes)
  | link (target path : Bytes)
  | rename (old new : Bytes)
  | refresh (snapshots : List ProcessSnapshot)
  deriving DecidableEq

/-- The mount table after a method. -/
def VfsOp.run (kh : Kh σ) (h : σ) (t : MountTable) : VfsOp → MountTable
  | .openPath path flags => (t.openPath kh h path flags).2.1
  | .openResult path flags => (t.openResult kh h path flags).2.1
  | .truncate id inode => t.truncate id inode
  | .setLen id inode length => (t.setLen id inode length).2
  | .write id inode offset payload => (t.write kh h id inode offset payload).2.1
  | .unlink path => (t.unlink kh h path).2.1
  | .symlink target path => (t.symlink kh h target path).2.1
  | .mkdir path => (t.mkdir kh h path).2.1
  | .rmdir path => (t.rmdir h path).2.1
  | .link target path => (t.link kh h target path).2.1
  | .rename old new => (t.rename kh h old new).2.1
  | .refresh snapshots => t.refreshProcesses snapshots

namespace MountTable
theorem backend?_setBackend (t : MountTable) (id : MountId) (b : Backend) (id' : MountId) :
    (t.setBackend id b).backend? id' =
      if id' = id then (t.backend? id').map (fun _ => b) else t.backend? id' := by
  unfold backend? setBackend
  rw [List.getElem?_modify]
  split_ifs with hid hid' hid'
  · cases t.mounts[id']? <;> rfl
  · exact absurd hid.symm hid'
  · exact absurd hid'.symm hid
  · cases t.mounts[id']? <;> rfl

end MountTable
end Yurt
