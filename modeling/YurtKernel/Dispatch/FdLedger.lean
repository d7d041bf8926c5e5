import YurtKernel.Kernel.LedgerOps
import YurtKernel.Dispatch.Fd

/-! Descriptor calls keep the reference ledger.

    One lemma for each call: if the counts are exact before it, they are exact after it. A call that
    takes references needs room in their counts. A call that gives references up must not drop the
    last one of a socket that still has counted rights queued, since those are never released. -/

namespace Yurt
open Kernel SortedMap
variable {σ : Type} {k : Kernel σ} {es : List FdEntry} {e : FdEntry} {pid : Pid} {request : Bytes}
variable {xs : List FdEntry} {fd newfd oldfd : Nat}

/-! ### Safe drops and live entries -/

namespace Kernel

/-- Whether a drop is safe depends on the sockets only. -/
theorem SafeDrop.congr {k' : Kernel σ} (h : k.SafeDrop xs)
    (hs : k'.refView.sockets = k.refView.sockets) : k'.SafeDrop xs := by
  unfold SafeDrop RefView.SafeDrop RefView.Clean at *
  rw [hs]
  exact h

theorem Ledger.safeDrop_of_no_socket (h : k.Ledger (xs ++ es))
    (hxs : ∀ id, FdEntry.socket id ∉ xs) : k.SafeDrop xs :=
  h.safeDrop (fun id hid => absurd hid (hxs id))

/-- References that are also in a table can be dropped. -/
theorem Ledger.safeDrop_of_table (h : k.Ledger (xs ++ es))
    (hxs : ∀ e ∈ xs, ∃ fd, k.fdEntry pid fd = some e) : k.SafeDrop xs := by
  refine h.safeDrop (fun id hid => .inl ?_)
  obtain ⟨fd, hfd⟩ := hxs _ hid
  exact holders_of_fdEntry hfd rfl

theorem Ledger.safeDrop_one (h : k.Ledger (e :: es)) (hfd : k.fdEntry pid fd = some e) :
    k.SafeDrop [e] := by
  have hsingle : k.Ledger ([e] ++ es) := h
  refine hsingle.safeDrop (fun id hid => .inl ?_)
  obtain rfl := List.mem_singleton.mp hid
  exact holders_of_fdEntry hfd rfl

theorem Ledger.live_of_fdEntry (h : k.Ledger es) (hfd : k.fdEntry pid fd = some e)
    (he : e.counted = true) : 0 < k.counter e :=
  h.counter_pos_of_holder he (holders_of_fdEntry hfd he)

@[simp] theorem processes_incFdEntryRef (k : Kernel σ) (e : FdEntry) :
    (k.incFdEntryRef e).processes = k.processes := by
  cases e <;> rfl

/-! ### Closing -/

theorem Ledger.closeFdNumber (kh : Kh σ) (h : k.Ledger es)
    (hsafe : k.SafeDrop (k.fdEntry pid fd).toList) : (k.closeFdNumber kh pid fd).2.Ledger es := by
  have hremove : (k.removeFd pid fd).Ledger ((k.fdEntry pid fd).toList ++ es) := h.removeFd
  unfold Kernel.closeFdNumber
  cases hfd : k.fdEntry pid fd with
  | none =>
    rw [hfd] at hremove
    exact hremove
  | some e =>
    rw [hfd] at hremove hsafe
    have hclose := hremove.closeEntry (hsafe.congr rfl)
    simp only
    generalize (k.removeFd pid fd).closeEntry e = r at hclose ⊢
    obtain ⟨handle, k'⟩ := r
    cases handle <;> exact hclose

/-! ### Drops read no process record -/

/-- The same kernel with other process records. -/
def withProcesses (k : Kernel σ) (ps : SortedMap Pid Process) : Kernel σ := { k with processes := ps }

/-- Dropping a socket reference reads no process record. -/
theorem socketDecRefAux_withProcesses (ps : SortedMap Pid Process) :
    ∀ (fuel : Nat) (k : Kernel σ) (id : Nat), Kernel.socketDecRefAux fuel (k.withProcesses ps) id =
      ((Kernel.socketDecRefAux fuel k id).1, (Kernel.socketDecRefAux fuel k id).2.withProcesses ps)
  | 0, _, _ => rfl
  | fuel + 1, k, id => by
    have hfold : ∀ (pending : List Nat) (k : Kernel σ),
        pending.foldl (fun k p => (socketDecRefAux fuel k p).2) (k.withProcesses ps) =
          (pending.foldl (fun k p => (socketDecRefAux fuel k p).2) k).withProcesses ps := by
      intro pending
      induction pending with
      | nil => intro k; rfl
      | cons p pending ih =>
        intro k
        rw [List.foldl_cons, List.foldl_cons, socketDecRefAux_withProcesses ps fuel k p, ih]
    cases hs : k.sockets.get? id with
    | none =>
      have hs' : (k.withProcesses ps).sockets.get? id = none := hs
      simp only [socketDecRefAux, hs, hs']
    | some s =>
      have hs' : (k.withProcesses ps).sockets.get? id = some s := hs
      have hlow : ((k.withProcesses ps).lowered id s).forgetName s.kind =
          ((k.lowered id s).forgetName s.kind).withProcesses ps := by
        unfold forgetName
        split <;> rfl
      rw [socketDecRefAux_some hs, socketDecRefAux_some hs', hlow, hfold]
      split_ifs
      · rfl
      · cases s.kind.peer? <;> rfl

section
variable (k : Kernel σ) (ps : SortedMap Pid Process) (e : FdEntry)

theorem closeEntry_withProcesses :
    (k.withProcesses ps).closeEntry e = ((k.closeEntry e).1, (k.closeEntry e).2.withProcesses ps) := by
  cases e with
  | pipe id side =>
    simp only [closeEntry, pipeDecRef]
    have hp : (k.withProcesses ps).pipes = k.pipes := rfl
    rw [hp]
    cases k.pipes.get? id with
    | none => rfl
    | some b => simp only; split_ifs <;> rfl
  | file id =>
    simp only [closeEntry, ofdDecRef]
    have hp : (k.withProcesses ps).ofds = k.ofds := rfl
    rw [hp]
    cases k.ofds.get? id with
    | none => rfl
    | some o => simp only; split_ifs <;> rfl
  | socket id => exact socketDecRefAux_withProcesses ps _ k id
  | _ => rfl

theorem incFdEntryRef_withProcesses :
    (k.withProcesses ps).incFdEntryRef e = (k.incFdEntryRef e).withProcesses ps := by
  cases e <;> rfl

theorem processes_closeEntry : (k.closeEntry e).2.processes = k.processes := by
  have h := k.closeEntry_withProcesses k.processes e
  rw [show k.withProcesses k.processes = k from rfl] at h
  exact congrArg (fun r => r.2.processes) h

end

/-! ### Duplicating -/

/-- Taking one more reference to what a descriptor names. -/
theorem Ledger.incTableEntry (h : k.Ledger es) (hfd : k.fdEntry pid fd = some e)
    (hroom : k.counter e < u32Max) : ((k.touch pid).incFdEntryRef e).Ledger (e :: es) := by
  refine Ledger.incFdEntryRef (h.frame (k.refView_touch pid)) ?_ ?_
  · intro he
    rw [counter, refView_touch]
    exact h.live_of_fdEntry hfd he
  · rw [counter, refView_touch]
    exact hroom

theorem fdEntry_incTouch (k : Kernel σ) (pid : Pid) (e : FdEntry) (fd : Nat) :
    ((k.touch pid).incFdEntryRef e).fdEntry pid fd = k.fdEntry pid fd := by
  have hproc : ((k.touch pid).incFdEntryRef e).process pid = k.process pid := by
    rw [process, processes_incFdEntryRef]
    exact k.process_touch pid
  rw [fdEntry, hproc, fdEntry]

theorem Ledger.dupFd (kh : Kh σ) (h : k.Ledger es)
    (hroom : ∀ fd e, readU32Args 1 request = some [fd] → k.fdEntry pid fd = some e →
      k.counter e < u32Max) : (k.dupFd kh pid request).2.Ledger es := by
  unfold Kernel.dupFd
  split
  · rename_i oldfd hargs
    cases hfd : k.fdEntry pid oldfd with
    | none => exact h.frame (k.refView_touch pid)
    | some e =>
      have hinc := h.incTableEntry hfd (hroom oldfd e hargs hfd)
      have hheld := (k.fdEntry_incTouch pid e oldfd).trans hfd
      simp only
      generalize (k.touch pid).incFdEntryRef e = k' at hinc hheld ⊢
      cases hfree : k'.freeFd pid with
      | none =>
        exact hinc.decFdEntryRef kh (hinc.safeDrop_one hheld)
      | some newfd => exact hinc.installFd_free (freeFd_free hfree)
  · exact h

/-- What stood at the target of a duplication is closed while its table still lists it; taking it
    out of the table first comes to the same. -/
theorem aliasFd_some {prev : FdEntry} (hnew : k.fdEntry pid newfd = some prev) (e : FdEntry) :
    ∃ p : Process, p.fdTable = (k.process pid).fdTable.install newfd e ∧ (k.aliasFd pid newfd e).2 =
        (((k.removeFd pid newfd).closeEntry prev).2.incFdEntryRef e).setProcess pid p := by
  have hm : ((k.closeEntry prev).2.incFdEntryRef e).processes = k.processes := by
    rw [processes_incFdEntryRef, processes_closeEntry]
  have hp : ((k.closeEntry prev).2.incFdEntryRef e).process pid = k.process pid := by
    rw [process, hm, process]
  refine ⟨{ k.process pid with fdTable := (k.process pid).fdTable.install newfd e }, rfl, ?_⟩
  have hremove : ∃ p, k.removeFd pid newfd = k.withProcesses (k.processes.insert pid p) := ⟨_, rfl⟩
  obtain ⟨p, hremove⟩ := hremove
  rw [hremove, closeEntry_withProcesses, incFdEntryRef_withProcesses]
  simp only [aliasFd, hnew, installFd, updProcess, hp]
  rw [setProcess, setProcess, hm]
  simp only [withProcesses, insert_insert]

theorem Ledger.aliasFd (h : k.Ledger es) (hfd : k.fdEntry pid oldfd = some e)
    (hne : oldfd ≠ newfd) (hroom : k.counter e < u32Max)
    (hsafe : k.SafeDrop (k.fdEntry pid newfd).toList) : (k.aliasFd pid newfd e).2.Ledger es := by
  cases hnew : k.fdEntry pid newfd with
  | none =>
    have hinc : (k.incFdEntryRef e).Ledger (e :: es) := h.incFdEntryRef (h.live_of_fdEntry hfd) hroom
    have hfree : (k.incFdEntryRef e).fdEntry pid newfd = none := by
      rw [Kernel.fdEntry, process, processes_incFdEntryRef]
      exact hnew
    simp only [Kernel.aliasFd, hnew]
    exact hinc.installFd_free hfree
  | some prev =>
    obtain ⟨p, hp, halias⟩ := aliasFd_some hnew e
    have hremove : (k.removeFd pid newfd).Ledger ((k.fdEntry pid newfd).toList ++ es) := h.removeFd
    rw [hnew] at hremove hsafe
    have hclose : ((k.removeFd pid newfd).closeEntry prev).2.Ledger es :=
      hremove.closeEntry (hsafe.congr rfl)
    have htable : ((k.removeFd pid newfd).closeEntry prev).2.process pid =
        ({ k.process pid with fdTable := (k.process pid).fdTable.remove newfd } :
          Process).ensureMainThread none := by
      rw [process, processes_closeEntry]
      simp [Kernel.removeFd, updProcess]
    have hheld : ((k.removeFd pid newfd).closeEntry prev).2.fdEntry pid oldfd = some e := by
      rw [Kernel.fdEntry, htable]
      simpa [Kernel.fdEntry, FdTable.entry, FdTable.remove, Process.ensureMainThread, hne] using hfd
    have hcounter : ((k.removeFd pid newfd).closeEntry prev).2.counter e ≤ k.counter e := by
      rw [Kernel.counter, refView_closeEntry hremove]
      refine (RefView.counter_close_le _ prev e).trans (le_of_eq ?_)
      cases e <;> rfl
    have hinc := hclose.incFdEntryRef (hclose.live_of_fdEntry hheld) (by omega)
    rw [halias]
    refine hinc.setProcess (fun x _ => ?_)
    have hproc : (((k.removeFd pid newfd).closeEntry prev).2.incFdEntryRef e).process pid =
        ((k.removeFd pid newfd).closeEntry prev).2.process pid := by
      rw [process, processes_incFdEntryRef, process]
    have hinsert := count_values_insert (k.process pid).fdTable.entries newfd e x
    have herase := count_values_erase (k.process pid).fdTable.entries newfd x
    have hcons : (e :: es).count x = [e].count x + es.count x := by
      rw [← List.count_append, List.singleton_append]
    rw [hp, hproc, htable]
    simp only [FdTable.install, FdTable.remove, Process.ensureMainThread]
    omega

/-- `aliasFd` on a record that was looked up before. -/
theorem Ledger.aliasTouched (h : k.Ledger es) (hfd : k.fdEntry pid oldfd = some e)
    (hne : oldfd ≠ newfd) (hroom : k.counter e < u32Max)
    (hsafe : k.SafeDrop (k.fdEntry pid newfd).toList) :
    ((k.touch pid).aliasFd pid newfd e).2.Ledger es := by
  refine Ledger.aliasFd (h.frame (k.refView_touch pid)) ((k.fdEntry_touch pid oldfd).trans hfd)
    hne ?_ ?_
  · rw [counter, refView_touch]
    exact hroom
  · rw [fdEntry_touch]
    exact hsafe.congr (congrArg RefView.sockets (k.refView_touch pid))

theorem Ledger.dup2Fd (kh : Kh σ) (h : k.Ledger es)
    (hroom : ∀ fd fd' e, readU32Args 2 request = some [fd, fd'] → k.fdEntry pid fd = some e →
      k.counter e < u32Max)
    (hsafe : ∀ fd fd' e, readU32Args 2 request = some [fd, fd'] → k.fdEntry pid fd = some e →
      fd' < (k.process pid).nofileSoft → fd ≠ fd' → k.SafeDrop (k.fdEntry pid fd').toList) :
    (k.dup2Fd kh pid request).2.Ledger es := by
  unfold Kernel.dup2Fd
  split
  · rename_i oldfd newfd hargs
    cases hfd : k.fdEntry pid oldfd with
    | none => exact h.frame (k.refView_touch pid)
    | some e =>
      simp only
      split_ifs with hlimit heq
      · exact h.frame (k.refView_touch pid)
      · exact h.frame (k.refView_touch pid)
      · have halias := h.aliasTouched hfd heq (hroom oldfd newfd e hargs hfd)
          (hsafe oldfd newfd e hargs hfd (not_le.mp hlimit) heq)
        exact halias.frame (refView_closeHandle kh _ _)
  · exact h

theorem Ledger.dup3Fd (kh : Kh σ) (h : k.Ledger es)
    (hroom : ∀ fd fd' flags e, readU32Args 3 request = some [fd, fd', flags] →
      k.fdEntry pid fd = some e → k.counter e < u32Max)
    (hsafe : ∀ fd fd' flags e, readU32Args 3 request = some [fd, fd', flags] →
      flags = flags &&& 1 → k.fdEntry pid fd = some e → fd' < (k.process pid).nofileSoft →
      fd ≠ fd' → k.SafeDrop (k.fdEntry pid fd').toList) :
    (k.dup3Fd kh pid request).2.Ledger es := by
  unfold Kernel.dup3Fd
  split
  · rename_i oldfd newfd flags hargs
    have htouch := h.frame (k.refView_touch pid)
    cases hfd : k.fdEntry pid oldfd with
    | none =>
      simp only
      split_ifs
      · exact h
      · exact h
      · exact htouch
    | some e =>
      simp only
      split_ifs with hflags heq hlimit
      · exact h
      · exact h
      · exact htouch
      · have halias := h.aliasTouched hfd heq (hroom oldfd newfd flags e hargs hfd)
          (hsafe oldfd newfd flags e hargs (not_not.mp hflags) hfd (not_le.mp hlimit) heq)
        refine halias.frame ((refView_closeHandle kh _ _).trans ?_)
        exact refView_updProcess (fun p => p.fdTable.entries_flagged newfd flags)
  · exact h

theorem Ledger.dupMinFd (h : k.Ledger es)
    (hroom : ∀ fd fd' e, readU32Args 2 request = some [fd, fd'] → k.fdEntry pid fd = some e →
      k.counter e < u32Max) : (k.dupMinFd pid request).2.Ledger es := by
  unfold Kernel.dupMinFd
  split
  · rename_i oldfd minfd hargs
    cases hfd : k.fdEntry pid oldfd with
    | none => exact h.frame (k.refView_touch pid)
    | some e =>
      simp only
      split_ifs with hlimit
      · exact h.frame (k.refView_touch pid)
      · cases hfree : (k.process pid).fdTable.lowestFreeFdBelow minfd (k.process pid).nofileSoft with
        | none => exact h.frame (k.refView_touch pid)
        | some newfd =>
          refine (h.incTableEntry hfd (hroom oldfd minfd e hargs hfd)).installFd_free ?_
          rw [fdEntry_incTouch]
          exact FdTable.lowestFreeFdBelow_free hfree
  · exact h

/-! ### Flags and pipes -/

theorem refView_setFdDescriptorFlags (k : Kernel σ) (pid : Pid) (request : Bytes) :
    (k.setFdDescriptorFlags pid request).2.refView = k.refView := by
  unfold setFdDescriptorFlags
  split
  · rename_i fd flags _
    cases ht : (k.process pid).fdTable.setDescriptorFlags fd flags with
    | error => exact k.refView_touch pid
    | ok t => exact refView_setProcess (FdTable.entries_of_setDescriptorFlags ht)
  · rfl

theorem Ledger.pipe (h : k.Ledger es) (cap : Nat) : (k.pipe pid cap).2.Ledger es := by
  unfold Kernel.pipe
  split_ifs
  · exact h
  · have hnew := (h.createPipe).frame (k.createPipe.2.refView_touch pid)
    have hid : k.createPipe.1 = k.nextPipeId := rfl
    simp only [hid]
    generalize k.createPipe.2.touch pid = k₁ at hnew ⊢
    have hdrop : ∀ k₂ : Kernel σ, k₂.Ledger (.pipe k.nextPipeId .read :: .pipe k.nextPipeId .write :: es) →
        ((k₂.pipeDecRef k.nextPipeId .read).pipeDecRef k.nextPipeId .write).Ledger es := by
      intro k₂ h₂
      have hboth : k₂.Ledger ([.pipe k.nextPipeId .read, .pipe k.nextPipeId .write] ++ es) := h₂
      exact hboth.closeEntries (hboth.safeDrop_of_no_socket (by simp))
    cases hread : k₁.freeFd pid with
    | none => exact hdrop k₁ hnew
    | some readFd =>
      have hinstall := hnew.installFd_free (freeFd_free hread)
      simp only
      cases hwrite : (k₁.installFd pid readFd (.pipe k.nextPipeId .read)).freeFd pid with
      | none =>
        -- taking the read end out again gives its reference back
        have hremove : ((k₁.installFd pid readFd (.pipe k.nextPipeId .read)).removeFd pid
            readFd).Ledger (((k₁.installFd pid readFd (.pipe k.nextPipeId .read)).fdEntry pid
            readFd).toList ++ (.pipe k.nextPipeId .write :: es)) := hinstall.removeFd
        rw [fdEntry_installFd_self] at hremove
        exact hdrop _ hremove
      | some writeFd => exact hinstall.installFd_free (freeFd_free hwrite)

end Kernel

end Yurt
