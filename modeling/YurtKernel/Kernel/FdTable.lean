import YurtKernel.Kernel.Lifecycle

/-! Per-process descriptor tables (`FdTable` in `kernel.rs`).

    A table maps descriptor numbers to entries and keeps the close-on-exec bit beside them; putting
    an entry in or taking one out forgets the bit. Free numbers are handed out lowest first, below
    the soft `RLIMIT_NOFILE`. -/

namespace Yurt
open Kernel
variable {σ : Type} (t : FdTable) (k : Kernel σ) (pid : Pid) (fd : Nat)

namespace FdTable

def entry : Option FdEntry := t.entries.get? fd

/-- The search of `lowest_free_fd_below`, on at most `tries` numbers from `n` up. -/
def searchFree (t : FdTable) (limit : Nat) : Nat → Nat → Option Nat
  | 0, _ => none
  | tries + 1, n =>
    if limit ≤ n then none
    else if !t.entries.contains n then some n
    else if n = u32Max then none
    else searchFree t limit tries (n + 1)

/-- One of any `size + 1` numbers is free, so the search never runs out of tries. -/
def lowestFreeFdBelow (minFd limit : Nat) : Option Nat := t.searchFree limit (t.entries.size + 1) minFd

def install (e : FdEntry) : FdTable where
  entries := t.entries.insert fd e
  descriptorFlags := t.descriptorFlags.erase fd

def remove : FdTable where
  entries := t.entries.erase fd
  descriptorFlags := t.descriptorFlags.erase fd

def setDescriptorFlags (fd flags : Nat) : Except Int FdTable :=
  if !t.entries.contains fd then .error EBADF
  else if flags &&& 1 = 0 then .ok { t with descriptorFlags := t.descriptorFlags.erase fd }
  else .ok { t with descriptorFlags := t.descriptorFlags.insert fd (flags &&& 1) }

/-- Table after `set_descriptor_flags`, whose result the caller ignores. -/
def flagged (fd flags : Nat) : FdTable :=
  match t.setDescriptorFlags fd flags with
  | .ok t => t
  | .error _ => t

def getDescriptorFlags : Except Int Nat :=
  if !t.entries.contains fd then .error EBADF else .ok ((t.descriptorFlags.get? fd).getD 0)

/-- Entries a spawned child receives: those without close-on-exec. -/
def inheritableEntries : SortedMap Nat FdEntry :=
  t.entries.filter (fun fd _ => ((t.descriptorFlags.get? fd).getD 0) &&& 1 = 0)

def fromEntries (entries : SortedMap Nat FdEntry) : FdTable := ⟨entries, .empty⟩

end FdTable

/-- Soft `RLIMIT_NOFILE`; a missing limit is no bound. -/
def Process.nofileSoft (p : Process) : Nat := ((p.rlimits rlimitNofile).map Prod.fst).getD u64Max

def Process.lowestFreeFdInLimit (p : Process) : Option Nat := p.fdTable.lowestFreeFdBelow 0 p.nofileSoft

/-! ### The table of a process in the kernel -/

namespace Kernel

/-- What descriptor `fd` of `pid` names. -/
def fdEntry : Option FdEntry := (k.process pid).fdTable.entry fd

def freeFd : Option Nat := (k.process pid).lowestFreeFdInLimit

def installFd (e : FdEntry) : Kernel σ :=
  k.updProcess pid (fun p => { p with fdTable := p.fdTable.install fd e })

def removeFd : Kernel σ := k.updProcess pid (fun p => { p with fdTable := p.fdTable.remove fd })

/-- `close_entry`: drop a reference; the handle of a host socket is the caller's to close. -/
def closeEntry : FdEntry → Option Int × Kernel σ
  | .pipe id side => (none, k.pipeDecRef id side)
  | .file ofdId => (none, k.ofdDecRef ofdId)
  | .socket id => k.socketDecRef id
  | _ => (none, k)

/-- Drop references one after the other and forget the host handles that come back. -/
def closeEntries (es : List FdEntry) : Kernel σ := es.foldl (fun k e => (k.closeEntry e).2) k

end Kernel

/-! ### Facts -/

namespace FdTable

theorem entries_of_setDescriptorFlags {t t' : FdTable} {fd flags : Nat}
    (h : t.setDescriptorFlags fd flags = .ok t') : t'.entries = t.entries := by
  unfold setDescriptorFlags at h
  split_ifs at h <;> cases h <;> rfl

theorem entries_flagged (fd flags : Nat) : (t.flagged fd flags).entries = t.entries := by
  unfold flagged
  cases h : t.setDescriptorFlags fd flags with
  | error => rfl
  | ok t' => exact entries_of_setDescriptorFlags h

theorem searchFree_spec {t : FdTable} {limit : Nat} : ∀ {tries n fd : Nat},
    t.searchFree limit tries n = some fd → n ≤ fd ∧ fd < limit ∧ t.entry fd = none
  | 0, _, _, h => by simp [searchFree] at h
  | tries + 1, n, fd, h => by
    rw [searchFree] at h
    split_ifs at h with hlimit hfree hmax
    · cases h
      refine ⟨le_rfl, by omega, ?_⟩
      exact SortedMap.contains_eq_false.mp (by simpa using hfree)
    · obtain ⟨hle, hlt, hnone⟩ := searchFree_spec h
      exact ⟨by omega, hlt, hnone⟩

theorem lowestFreeFdBelow_free {t : FdTable} {minFd limit fd : Nat}
    (h : t.lowestFreeFdBelow minFd limit = some fd) : t.entry fd = none :=
  (searchFree_spec h).2.2

end FdTable

@[simp] theorem Kernel.fdEntry_touch : (k.touch pid).fdEntry pid fd = k.fdEntry pid fd := by
  rw [fdEntry, process_touch, fdEntry]

theorem Kernel.fdEntry_installFd_self (e : FdEntry) : (k.installFd pid fd e).fdEntry pid fd = some e := by
  simp [installFd, updProcess, fdEntry, process, FdTable.entry, FdTable.install, Process.ensureMainThread]

theorem Kernel.process_installFd (e : FdEntry) : (k.installFd pid fd e).process pid =
    { k.process pid with fdTable := (k.process pid).fdTable.install fd e } := by
  rw [installFd, process_updProcess]
  exact congrArg (fun p : Process => { p with fdTable := (k.process pid).fdTable.install fd e })
    (((k.processes.get? pid).getD .default).ensureMainThread_idem none)

theorem Kernel.fdEntry_installFd_ne {fd fd' : Nat} (e : FdEntry) (h : fd' ≠ fd) :
    (k.installFd pid fd e).fdEntry pid fd' = k.fdEntry pid fd' := by
  rw [fdEntry, process_installFd]
  exact SortedMap.get?_insert_ne _ _ h

theorem Kernel.freeFd_free {k : Kernel σ} {pid : Pid} {fd : Nat} (h : k.freeFd pid = some fd) :
    k.fdEntry pid fd = none := FdTable.lowestFreeFdBelow_free h

end Yurt
