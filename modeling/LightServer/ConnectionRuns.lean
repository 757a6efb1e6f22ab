import LightServer.ConnectionTable

/-! Runs of the manager's operations: the entries of the connection table, the objects that leave it,
and the calls of `RemoveSocketObject` with what the listener calls meanwhile. -/
namespace LightServer

/-- The object and the socket of the `RemoveSocketObject` that the worker is inside. -/
def Worker.removing : Worker → Option (Ptr × SOCKET)
  | .remove _ p sock _ _ => some (p,sock)
  | _ => none

theorem Worker.removing_role {w : Worker} {p : Ptr} {k : SOCKET} :
    w.removing = some (p,k) ↔ ∃ stage, w.role = .removing stage p k := by
  cases w with
  | remove stage q k' count b => simp [removing,role]
  | beforeIo pv events ctx => cases pv <;> simp [removing,role]
  | _ => simp [removing,role]

namespace Host

/-- The object knows its socket, is valid and has not been deleted. -/
def Sound (k : SOCKET) (p : Ptr) (h : Host) : Prop :=
  p ∉ h.deletions ∧ ∃ object, h.heap p = some object ∧ object.socketId = k ∧ object.fValid = true

/-- The entry of the socket is gone and every other one is still there. One that was not there before is
for an object that has been made since. -/
structure TakesOut (k : SOCKET) (h h' : Host) : Prop where
  out : h'.findSocketObject k = none
  others : ∀ k' q, k' ≠ k → h.findSocketObject k' = some q → h'.findSocketObject k' = some q
  new : ∀ k' q, h'.findSocketObject k' = some q → h.findSocketObject k' = some q ∨ h.nextPtr ≤ q

end Host

namespace Sys

/-- The worker is inside `RemoveSocketObject`, from its call of `OnDisconnect` on. -/
def Removing (p : Ptr) (k : SOCKET) (s : Sys) : Prop := s.worker.removing = some (p,k)

instance (p : Ptr) (k : SOCKET) (s : Sys) : Decidable (s.Removing p k) := inferInstanceAs (Decidable (_ = _))

theorem removing_role {p : Ptr} {k : SOCKET} {s : Sys} : s.Removing p k ↔ ∃ stage, s.worker.role = .removing stage p k :=
  Worker.removing_role

/-- The entries are sound, and the deleted objects are those that are no more. -/
structure Tabled (s : Sys) : Prop where
  entries : s.host.table.Entries s.worker.role
  accounts : s.host.table.Accounts s.host.deletions

theorem started_tabled (config : Config) : config.started.Tabled := by
  refine ⟨⟨?_,?_,?_,?_,?_⟩,⟨?_,?_⟩⟩
  · simp [Config.started,Host.table]
  · simp [Config.started,Host.table,Host.findSocketObject]
  · simp [Config.started,Host.table,Host.findSocketObject]
  · simp [Config.started,Host.table,Host.findSocketObject]
  · simp [Config.started,Worker.role]
  · simp [Config.started,Host.deletions]
  · simp [Config.started,Host.deletions,Host.table,Table.Gone]

namespace Tabled

variable {s next : Sys} {op : Operation} {p : Ptr} {k : SOCKET}

theorem mem_entries (h : Host) (p : Ptr) : p ∈ h.sockObjectMap.entries.map Sigma.snd ↔ ∃ k, h.table.find k = some p := by
  constructor
  · intro member
    obtain ⟨⟨k,q⟩,entry,rfl⟩ := List.mem_map.mp member
    exact ⟨k,AList.mem_lookup_iff.mpr entry⟩
  · rintro ⟨k,found⟩
    exact List.mem_map.mpr ⟨⟨k,p⟩,AList.mem_lookup_iff.mp found,rfl⟩

theorem entries_nodup (tabled : s.Tabled) : (s.host.sockObjectMap.entries.map Sigma.snd).Nodup := by
  refine List.Nodup.map_on ?_ s.host.sockObjectMap.nodupKeys.nodup
  rintro ⟨k,p⟩ member ⟨k',q⟩ member' same
  obtain rfl : p = q := same
  rw [tabled.entries.unique k k' p (AList.mem_lookup_iff.mpr member) (AList.mem_lookup_iff.mpr member')]

theorem stopped (tabled : s.Tabled) (exited : s.worker = .exited) (started : s.host.hasStart = true)
    (host : next.host = s.host.stopJoined.2) (worker : next.worker = s.worker) : next.Tabled := by
  obtain ⟨find,deletions,nextPtr,core⟩ := Host.stopJoined_entries started
  have there {p : Ptr} (member : p ∈ s.host.sockObjectMap.entries.map Sigma.snd) :
      p < s.host.nextPtr ∧ s.host.table.core p ≠ none := by
    obtain ⟨k,found⟩ := (mem_entries s.host p).mp member
    obtain ⟨connected,live⟩ := tabled.entries.entry k p found (by simp [exited,Worker.role])
    exact ⟨tabled.entries.made k p found,by simp [live]⟩
  refine ⟨⟨fun p live => ?_,?_,?_,?_,?_⟩,?_⟩
  · rw [host,core] at live
    rw [host,nextPtr]
    split at live
    · contradiction
    · exact tabled.entries.below p live
  · simp [host,find]
  · simp [host,find]
  · simp [host,find]
  · simp [worker,exited,Worker.role]
  · rw [host,deletions]
    refine tabled.accounts.add tabled.entries_nodup (fun p member gone => (there member).2 gone.2) (fun p => ?_)
    rw [Table.Gone,Table.Gone,nextPtr,core]
    split
    · rename_i member
      exact ⟨fun _ => .inr member,fun _ => ⟨(there member).1,rfl⟩⟩
    · rename_i absent
      exact ⟨.inl,fun either => either.resolve_right absent⟩

theorem step (tabled : s.Tabled) (taken : s.operate op = some next) : next.Tabled := by
  cases operates taken with
  | aside worker aside =>
    refine ⟨?_,?_⟩
    · rw [worker]
      exact aside.enters.entries tabled.entries
    · rw [aside.deletions]
      exact tabled.accounts.same aside.enters.gone
  | stopped exited started host worker => exact tabled.stopped exited started host worker
  | worked act move =>
    rcases move.change with change | ⟨table,role⟩
    · exact ⟨change.entries tabled.entries,change.accounts tabled.entries tabled.accounts move.deletions⟩
    · refine ⟨?_,?_⟩
      · rw [table,role]
        exact tabled.entries
      · rw [table]
        rcases move.deletions with ⟨p,sock,before,after,_⟩ | ⟨_,same⟩
        · simp [role,before] at after
        · rw [same]
          exact tabled.accounts

theorem gone (taken : s.operate op = some next) (gone : s.host.table.Gone p) : next.host.table.Gone p := by
  cases operates taken with
  | aside worker aside => exact (aside.enters.gone p).mpr gone
  | stopped exited started host worker =>
    obtain ⟨_,_,nextPtr,core⟩ := Host.stopJoined_entries started
    rw [host,Table.Gone,nextPtr,core]
    exact ⟨gone.1,ite_eq_left_iff.mpr (fun _ => gone.2)⟩
  | worked act move =>
    rcases move.change with change | ⟨table,_⟩
    · rcases move.deletions with ⟨q,sock,before,_⟩ | ⟨other,_⟩
      · obtain ⟨nextPtr,core⟩ := change.deleted before
        rw [Table.Gone,nextPtr,core]
        refine ⟨gone.1,?_⟩
        by_cases same : p = q
        · rw [same,Function.update_self]
        · rw [Function.update_of_ne same]
          exact gone.2
      · exact (change.gone other p).mpr gone
    · rwa [table]

theorem lost (tabled : s.Tabled) (taken : s.operate op = some next) (found : s.host.table.find k = some p) :
    (∃ k', next.host.table.find k' = some p) ∨ next.host.table.Gone p := by
  have made := tabled.entries.made k p found
  cases operates taken with
  | aside worker aside => exact .inl ⟨k,aside.enters.find_kept found⟩
  | stopped exited started host worker =>
    obtain ⟨_,_,nextPtr,core⟩ := Host.stopJoined_entries started
    have member := (mem_entries s.host p).mpr ⟨k,found⟩
    refine .inr ?_
    rw [host,Table.Gone,nextPtr,core,if_pos member]
    exact ⟨made,rfl⟩
  | worked act move =>
    rcases move.change with change | ⟨table,_⟩
    · rcases change.find_kept tabled.entries found with kept | ⟨at_r,_,_⟩
      · exact .inl ⟨k,kept⟩
      · exact .inr (gone taken ⟨made,(tabled.entries.removing .erase p k at_r).2.1 rfl⟩)
    · exact .inl ⟨k,table ▸ found⟩

theorem run {final : Sys} {ops : List Operation} (tabled : s.Tabled) (run : Transition.exec Sys.operate s ops = some final) :
    final.Tabled :=
  Transition.exec_invariant_free (fun _ _ _ tabled taken => tabled.step taken) tabled run

/-- An object that is in the map at one time and not later has been deleted once in between. -/
theorem deleted_once {final : Sys} {ops : List Operation} (tabled : s.Tabled)
    (run : Transition.exec Sys.operate s ops = some final) (found : s.host.table.find k = some p)
    (lost : ∀ k', final.host.table.find k' ≠ some p) : final.host.deletions.count p = 1 := by
  have traced := Transition.exec_invariant_free
    (I := fun s => s.Tabled ∧ ((∃ k, s.host.table.find k = some p) ∨ s.host.table.Gone p))
    (fun _ _ _ both taken => ⟨both.1.step taken,both.2.elim (fun there => there.elim fun _ found => both.1.lost taken found)
      (fun before => .inr (gone taken before))⟩) ⟨tabled,.inl ⟨k,found⟩⟩ run
  rcases traced.2 with ⟨k',found'⟩ | gone
  · exact absurd found' (lost k')
  · exact List.count_eq_one_of_mem traced.1.accounts.once ((traced.1.accounts.gone p).mpr gone)

end Tabled

/-- `RemoveSocketObject` is called for the entry of the socket, and calls `OnDisconnect`. -/
theorem Move.removal_starts {h h' : Host} {w w' : Worker} {act : Act} (move : Move h w act h' w') {p : Ptr} {k : SOCKET}
    (removing : w'.role = .removing .deleteFD p k) : ∃ fd object, h.findSocketObject fd = some p ∧ h.heap p = some object ∧
      object.socketId = k ∧ h' = (h.modify p SocketObject.setInvalid).observe (.onDisconnect p k) := by
  obtain ⟨count,b,cmd,queue,object,rfl,rfl,_,_,_,_,_,_,_⟩ := move.starts_remove removing
  cases move with
  | disconnected _ _ cmd queue q object front left kind found live valid =>
    obtain ⟨_,rfl,rfl⟩ := Role.removing.inj removing
    exact ⟨cmd.fd,object,found,live,rfl,rfl⟩
  | _ => simp [Worker.role] at removing

section removal

variable {s next final : Sys} {op : Operation} {ops : List Operation} {p : Ptr} {k : SOCKET}

theorem removal_starts (tabled : s.Tabled) (outside : ¬ s.Removing p k) (taken : s.operate op = some next)
    (inside : next.Removing p k) : s.host.findSocketObject k = some p ∧ next.host.sockObjectMap = s.host.sockObjectMap ∧
      next.host.nextPtr = s.host.nextPtr ∧ next.host.log = s.host.log ++ [.onDisconnect p k] := by
  have before (stage : RemoveStage) : s.worker.role ≠ .removing stage p k := fun role => outside (removing_role.mpr ⟨stage,role⟩)
  obtain ⟨stage,role⟩ := removing_role.mp inside
  cases operates taken with
  | aside worker aside => exact absurd (worker ▸ role) (before stage)
  | stopped exited started host worker => exact absurd (worker ▸ role) (before stage)
  | worked act move =>
    have first : next.worker.role = .removing .deleteFD p k := by
      rcases move.change with change | ⟨_,same⟩
      · cases change with
        | enters enters aside aside' => exact absurd role (aside' stage p k)
        | connects q sock aside aside' live find nextPtr core => exact absurd role (aside' stage p k)
        | begins fd q sock connected free turned found live find nextPtr core =>
          obtain ⟨_,rfl,rfl⟩ := Role.removing.inj (turned.symm.trans role)
          exact turned
        | closes stage' stage'' q sock at_r turned early later find nextPtr core =>
          obtain ⟨_,rfl,rfl⟩ := Role.removing.inj (turned.symm.trans role)
          exact absurd at_r (before stage')
        | deletes q sock at_r turned find nextPtr core =>
          obtain ⟨_,rfl,rfl⟩ := Role.removing.inj (turned.symm.trans role)
          exact absurd at_r (before .delete)
        | erases q sock at_r free find nextPtr core => simp [free] at role
      · exact absurd (same.symm.trans role) (before stage)
    obtain ⟨fd,object,found,live,known,host⟩ := move.removal_starts first
    have free : s.worker.role = .free := by
      obtain ⟨count,b,_,_,_,at_w,_⟩ := move.starts_remove first
      rw [at_w]
      rfl
    obtain ⟨connected,core⟩ := tabled.entries.entry fd p found (by simp [free])
    obtain rfl : fd = k := by
      have same : object.core = (fd,true,connected) := by simpa [Host.table,live] using core
      exact (congrArg Prod.fst same).symm.trans known
    rw [host]
    exact ⟨found,rfl,rfl,rfl⟩

theorem removal_work {act : Act} {host : Host} {worker : Worker} (inside : s.Removing p k)
    (move : Move s.host s.worker act host worker) : host.nextPtr = s.host.nextPtr ∧
      (worker.removing = some (p,k) ∧ host.table.find = s.host.table.find ∨
        worker.removing ≠ some (p,k) ∧ host.table.find = Function.update s.host.table.find k none) := by
  obtain ⟨stage,role⟩ := removing_role.mp inside
  rcases move.change with change | ⟨table,same⟩
  · obtain ⟨nextPtr,⟨later,find⟩ | ⟨free,find⟩⟩ := change.removal role
    · exact ⟨nextPtr,.inl ⟨Worker.removing_role.mpr later,find⟩⟩
    · refine ⟨nextPtr,.inr ⟨fun still => ?_,find⟩⟩
      obtain ⟨_,role'⟩ := Worker.removing_role.mp still
      simp [free] at role'
  · exact ⟨congrArg Table.nextPtr table,
      .inl ⟨Worker.removing_role.mpr ⟨stage,same.trans role⟩,congrArg Table.find table⟩⟩

/-- What a step inside the call does to the map. -/
inductive RemovalStep (p : Ptr) (k : SOCKET) (s next : Sys) : Prop
  | called (inside : next.Removing p k) (aside : s.host.Aside next.host)
  | worked (inside : next.Removing p k) (find : next.host.table.find = s.host.table.find)
      (nextPtr : next.host.nextPtr = s.host.nextPtr)
  | erased (outside : ¬ next.Removing p k) (find : next.host.table.find = Function.update s.host.table.find k none)

theorem removal_step (inside : s.Removing p k) (taken : s.operate op = some next) : RemovalStep p k s next := by
  obtain ⟨stage,role⟩ := removing_role.mp inside
  cases operates taken with
  | aside worker aside => exact .called (removing_role.mpr ⟨stage,by rw [worker,role]⟩) aside
  | stopped exited started host worker => simp [exited,Worker.role] at role
  | worked act move =>
    obtain ⟨nextPtr,⟨still,find⟩ | ⟨done,find⟩⟩ := removal_work inside move
    · exact .worked still find nextPtr
    · exact .erased done find

theorem RemovalStep.takesOut {middle : Sys} (step : RemovalStep p k s middle) (inside : middle.Removing p k)
    (later : middle.host.TakesOut k final.host) : s.host.TakesOut k final.host := by
  cases step with
  | called _ aside =>
    refine ⟨later.out,fun k' q other found => later.others k' q other (aside.enters.find_kept found),fun k' q found => ?_⟩
    rcases later.new k' q found with before | made
    · exact aside.enters.find_new before
    · exact .inr (le_trans aside.enters.nextPtr_le made)
  | worked _ find nextPtr =>
    refine ⟨later.out,fun k' q other found => later.others k' q other ((congrFun find k').trans found),fun k' q found => ?_⟩
    rcases later.new k' q found with before | made
    · exact .inl ((congrFun find k').symm.trans before)
    · exact .inr (nextPtr ▸ made)
  | erased outside find => exact absurd inside outside

theorem RemovalStep.ends (step : RemovalStep p k s next) (outside : ¬ next.Removing p k) :
    next.host.table.find = Function.update s.host.table.find k none := by
  cases step with
  | called inside aside => exact absurd inside outside
  | worked inside find nextPtr => exact absurd inside outside
  | erased outside find => exact find

/-- The call takes out its own entry, whatever is called meanwhile. -/
theorem removal_takesOut (visit : Transition.Visit Sys.operate (Removing p k) s ops final) : s.host.TakesOut k final.host := by
  induction visit with
  | leave here taken gone =>
    have find := (removal_step here taken).ends gone
    refine ⟨?_,fun k' q other found => ?_,fun k' q found => ?_⟩
    · exact (congrFun find k).trans (Function.update_self ..)
    · exact (congrFun find k').trans ((Function.update_of_ne other ..).trans found)
    · have before := (congrFun find k').symm.trans found
      by_cases same : k' = k
      · rw [same,Function.update_self] at before
        contradiction
      · exact .inl ((Function.update_of_ne same ..).symm.trans before)
  | stay here taken later ih => exact (removal_step here taken).takesOut later.here ih

/-- Where nothing is called meanwhile, the map is as before but for the entry. -/
theorem removal_alone (visit : Transition.Visit Sys.operate (Removing p k) s ops final)
    (alone : ∀ op ∈ ops, ∃ act, op = .work act) : final.host.table.find = Function.update s.host.table.find k none := by
  induction visit with
  | leave here taken gone => exact (removal_step here taken).ends gone
  | stay here taken later ih =>
    obtain ⟨act,rfl⟩ := alone _ List.mem_cons_self
    obtain ⟨host,worker,move,rfl⟩ := workerAct_move taken
    rw [ih (fun op member => alone op (List.mem_cons_of_mem _ member))]
    obtain ⟨_,⟨_,find⟩ | ⟨done,_⟩⟩ := removal_work here move
    · exact congrArg (Function.update · k none) find
    · exact absurd later.here done

/-- A socket whose object is being removed takes no message. -/
theorem removing_send (tabled : s.Tabled) (inside : s.Removing p k) (addr : Option Sockaddr) (raw : MsgPacket)
    (buf : List UInt8) : s.host.send k addr raw buf = (socketError,s.host) := by
  obtain ⟨stage,role⟩ := removing_role.mp inside
  obtain ⟨found,deleted,live⟩ := tabled.entries.removing stage p k role
  have found : s.host.findSocketObject k = some p := found
  have refused : s.host.storeMessage k addr raw buf = (socketError,s.host) := by
    cases object : s.host.heap p with
    | none => simp [Host.storeMessage,found,object]
    | some object' =>
      have known : s.host.table.core p = some object'.core := by simp [Host.table,object]
      have invalid : object'.fValid = false := by
        cases stage with
        | erase => simp [known] at deleted
        | deleteFD | close | delete =>
          obtain ⟨connected,core⟩ := live (by simp)
          exact congrArg (fun core => core.2.1) (Option.some.inj (known.symm.trans core))
      simp [Host.storeMessage,found,object,invalid]
  simp [Host.send,refused]

end removal

theorem Tabled.sound {s : Sys} (tabled : s.Tabled) {k : SOCKET} {p : Ptr} (found : s.host.findSocketObject k = some p)
    (outside : ¬ s.Removing p k) : s.host.Sound k p := by
  have before (stage : RemoveStage) : s.worker.role ≠ .removing stage p k := fun role => outside (removing_role.mpr ⟨stage,role⟩)
  obtain ⟨connected,core⟩ := tabled.entries.entry k p found before
  refine ⟨fun deleted => ?_,?_⟩
  · have gone := (tabled.accounts.gone p).mp deleted
    simp [gone.2] at core
  · obtain ⟨object,live,known⟩ := Option.map_eq_some_iff.mp core
    exact ⟨object,live,congrArg Prod.fst known,congrArg (fun core => core.2.1) known⟩

theorem operated_tabled {config : Config} {ops : List Operation} {s : Sys} (run : Operated config ops s) : s.Tabled :=
  (started_tabled config).run run

/-- Each entry but that of a removal under way leads to its own valid object. An object that is taken out has been
deleted once. A call of `RemoveSocketObject` takes out its own entry only, and from its `OnDisconnect` on the socket
takes no message. -/
theorem connection_table {config : Config} {ops : List Operation} {s : Sys} (run : Operated config ops s) :
    (∀ k p, s.host.findSocketObject k = some p → ¬ s.Removing p k → s.host.Sound k p) ∧
    (∀ k k' p, s.host.findSocketObject k = some p → s.host.findSocketObject k' = some p → k = k') ∧
    (∀ before after earlier k p, ops = before ++ after → Operated config before earlier →
      earlier.host.findSocketObject k = some p → (∀ k', s.host.findSocketObject k' ≠ some p) →
        s.host.deletions.count p = 1) ∧
    (∀ p k op next more final, ¬ s.Removing p k → s.operate op = some next →
      Transition.Visit Sys.operate (Removing p k) next more final →
        s.host.findSocketObject k = some p ∧ next.host.log = s.host.log ++ [.onDisconnect p k] ∧
        s.host.TakesOut k final.host ∧ ((∀ op ∈ more, ∃ act, op = .work act) →
          ∀ k' ≠ k, final.host.findSocketObject k' = s.host.findSocketObject k')) ∧
    ∀ p k addr raw buf, s.Removing p k → s.host.send k addr raw buf = (socketError,s.host) := by
  have tabled := operated_tabled run
  refine ⟨fun k p found outside => tabled.sound found outside,tabled.entries.unique,?_,?_,?_⟩
  · intro before after earlier k p split first found lost
    have later : Transition.exec Sys.operate earlier after = some s := by
      have whole : Transition.exec Sys.operate config.started (before ++ after) = some s := split ▸ run
      rwa [Transition.exec_append,first,Option.bind_some] at whole
    exact (operated_tabled first).deleted_once later found lost
  · intro p k op next more final outside taken visit
    obtain ⟨found,sockObjectMap,nextPtr,log⟩ := removal_starts tabled outside taken visit.here
    have same : next.host.table.find = s.host.table.find := congrArg (fun map sock => AList.lookup sock map) sockObjectMap
    obtain ⟨out,others,new⟩ := removal_takesOut visit
    refine ⟨found,log,⟨out,?_,?_⟩,?_⟩
    · intro k' q other found'
      exact others k' q other ((congrFun same k').trans found')
    · intro k' q found'
      rw [← nextPtr]
      exact (new k' q found').imp (congrFun same k').symm.trans id
    · intro alone k' other
      have find := congrFun (removal_alone visit alone) k'
      rw [Function.update_of_ne other,same] at find
      exact find
  · intro p k addr raw buf inside
    exact removing_send tabled inside addr raw buf

/-- Two connections, and the worker about to process a command that disconnects the first. -/
def disconnecting : List Operation :=
  [.add (.connectToRemote [] (.ok 7) (.ok ())) .blank 0 false,.add (.connectToRemote [] (.ok 8) (.ok ())) .blank 0 false,
   .disconnect 7,.work (.epollPwait (.ok [(5,epollin)])),.work .worker]

/-- What the listener calls from `OnDisconnect`, and the rest of the removal. -/
def reconnecting : List Operation :=
  [.disconnect 7,.add (.connectToRemote [] (.ok 9) (.ok ())) .blank 0 false] ++ List.replicate 4 (.work .worker)

/-- The run of a removal, from the step that calls it to the end of the actions. -/
def removes (p : Ptr) (k : SOCKET) (s : Sys) (more : List Operation) : Bool :=
  (s.operate (.work .worker)).any (fun next =>
    next.Removing p k ∧ Transition.Along Sys.operate (fun s _ => s.Removing p k) next more ∧
      (Transition.exec Sys.operate next more).any (fun final =>
        ¬ final.Removing p k ∧ p ∉ final.host.sockObjectMap.entries.map Sigma.snd))

theorem removes_visit {p : Ptr} {k : SOCKET} {s : Sys} {more : List Operation} (found : s.removes p k more = true) :
    ∃ next final, s.operate (.work .worker) = some next ∧ Transition.Visit Sys.operate (Removing p k) next more final ∧
      ∀ k', final.host.findSocketObject k' ≠ some p := by
  obtain ⟨next,taken,found⟩ := (Option.any_eq_true _ _).mp found
  obtain ⟨inside,along,found⟩ := of_decide_eq_true found
  obtain ⟨final,run,found⟩ := (Option.any_eq_true _ _).mp found
  obtain ⟨outside,lost⟩ := of_decide_eq_true found
  refine ⟨next,final,taken,.of_run inside run along outside,fun k' found => ?_⟩
  exact lost ((Tabled.mem_entries final.host p).mpr ⟨k',found⟩)

theorem disconnected_entry_out :
    ∃ s next final, Operated (.plain .tcpClient 0) disconnecting s ∧ s.operate (.work .worker) = some next ∧
      Transition.exec Sys.operate next reconnecting = some final ∧ s.host.Sound 8 1 ∧
      next.host.send 7 none ⟨none,0,0,0,0,[]⟩ [1] = (socketError,next.host) ∧ s.host.TakesOut 7 final.host ∧
      final.host.deletions.count 0 = 1 := by
  obtain ⟨s,run,found,found',outside,outside',removed⟩ := operated_reaches (.plain .tcpClient 0) disconnecting (fun s =>
    s.host.findSocketObject 8 = some 1 ∧ s.host.findSocketObject 7 = some 0 ∧ ¬ s.Removing 1 8 ∧ ¬ s.Removing 0 7 ∧
      s.removes 0 7 reconnecting = true) (by decide +kernel)
  obtain ⟨next,final,taken,visit,lost⟩ := removes_visit removed
  have first : Transition.exec Sys.operate (Config.plain .tcpClient 0).started disconnecting = some s := run
  have started : Operated (.plain .tcpClient 0) (disconnecting ++ [.work .worker]) next := by
    simp [Operated,Transition.exec_append,first,taken]
  have ended : Operated (.plain .tcpClient 0) (disconnecting ++ .work .worker::reconnecting) final := by
    simp [Operated,Transition.exec_append,first,taken,visit.run]
  obtain ⟨sound,_,_,removal,_⟩ := connection_table run
  obtain ⟨_,_,_,_,refused⟩ := connection_table started
  obtain ⟨_,_,once,_,_⟩ := connection_table ended
  exact ⟨s,next,final,run,taken,visit.run,sound 8 1 found outside,refused 0 7 none _ [1] visit.here,
    (removal 0 7 _ next reconnecting final outside' taken visit).2.2.1,once disconnecting _ s 7 0 rfl run found' lost⟩

end Sys

end LightServer
