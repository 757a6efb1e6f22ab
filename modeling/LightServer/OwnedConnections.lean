import LightServer.OwnedFds
import LightServer.ServerObjects

/-! The connections of a `TcpClient` or a `UdpServer`. Its sockets are opened by the threads that call it,
and the worker reads, writes and closes for the entries of the map. -/
namespace LightServer

namespace View

/-- A connection that the worker can come across is the entry of its socket. -/
structure Keyed (v : View) : Prop where
  entered : ∀ p sock connected, (v.Visible p ∨ ∃ k notify, Task.adding k p notify ∈ v.tasks) →
    v.table.core p = some (sock,true,connected) → v.table.find sock = some p
  absent : ∀ sock p notify, Task.inserting sock p notify ∈ v.tasks → v.table.find sock = none
  reading : ∀ p sock, v.role = .reading p sock → ∃ connected, v.table.core p = some (sock,true,connected)
  removing : ∀ stage p sock, v.role = .removing stage p sock → ∀ k connected, v.table.core p ≠ some (k,true,connected)

theorem started_keyed (config : Config) : Keyed config.started.view := by
  refine ⟨fun p sock connected _ core => ?_,fun sock p notify member => ?_,by simp [Sys.view,Config.started,Worker.role],
    by simp [Sys.view,Config.started,Worker.role]⟩
  · simp [Sys.view,Host.table,Config.started] at core
  · simp [Sys.view,Config.started,Caller.task] at member

variable {T T' : Table} {role role' : Role} {pending : List Ptr} {tasks : List Task}

private theorem Keyed.work (keyed : Keyed ⟨T,role,pending,false,tasks⟩) (sound : Sound ⟨T,role,pending,false,tasks⟩)
    (entered : Entered ⟨T,role,pending,false,tasks⟩) (serving : role ≠ .accepting ∧ ∀ sock, role ≠ .holding sock)
    (work : Table.Work T role T' role') : Keyed ⟨T',role',pending,false,tasks⟩ := by
  have seen {p : Ptr} {sock : SOCKET} {connected : Bool}
      (near : Visible ⟨T',role',pending,false,tasks⟩ p ∨ ∃ k notify, Task.adding k p notify ∈ tasks)
      (core : T.core p = some (sock,true,connected)) : T.find sock = some p := by
    refine keyed.entered p sock connected ?_ core
    rcases near with (shows | member) | adding
    · rcases work.shows shows with old | ⟨rfl,_⟩
      · exact .inl (.inl old)
      · exact absurd (sound.core T.nextPtr (by simp [core])) (Nat.lt_irrefl _)
    · exact .inl (.inr member)
    · exact .inr adding
  have same (find : T'.find = T.find) (core : T'.core = T.core)
      (reading : ∀ p sock, role' = .reading p sock → ∃ connected, T.core p = some (sock,true,connected))
      (removing : ∀ stage p sock, role' = .removing stage p sock → ∃ stage sock, role = .removing stage p sock) :
      Keyed ⟨T',role',pending,false,tasks⟩ := by
    refine ⟨fun p sock connected near live => ?_,fun sock p notify member => ?_,core ▸ reading,fun stage p sock now => ?_⟩
    · exact find ▸ seen near (core ▸ live)
    · exact find ▸ keyed.absent sock p notify member
    · obtain ⟨_,_,before⟩ := removing stage p sock now
      exact core ▸ keyed.removing _ p _ before
  have closed (closes : T.Closes T') (reading : ∀ p sock, role' ≠ .reading p sock)
      (removing : ∀ stage p sock, role' = .removing stage p sock → ∃ stage sock, role = .removing stage p sock) :
      Keyed ⟨T',role',pending,false,tasks⟩ := by
    obtain ⟨_,_,rfl,_,_⟩ := closes
    exact same rfl rfl (fun p sock now => absurd now (reading p sock)) removing
  cases work with
  | rest _ _ settled later =>
    rcases later with rfl | rfl | ⟨q,k,rfl,rfl⟩
    · exact same rfl rfl keyed.reading (fun stage p sock now => ⟨stage,sock,now⟩)
    · exact same rfl rfl (by simp) (by simp)
    · exact same rfl rfl (by simp) (by simp)
  | connect p sock _ kind core later =>
    have before : T.find sock = some p := keyed.entered p sock false (.inl (.inl (.inr (.inr rfl)))) core
    refine ⟨fun q k connected near live => ?_,keyed.absent,fun q k now => ?_,fun stage q k now => ?_⟩
    · by_cases connects : q = p
      · subst connects
        obtain ⟨rfl,_⟩ : sock = k ∧ _ := by simpa [Table.record,Table.setCore] using live
        exact before
      · exact seen near (by simpa [connects,Table.record,Table.setCore] using live)
    · rcases later with rfl | rfl <;> simp at now
    · rcases later with rfl | rfl <;> simp at now
  | startRead p sock connected core =>
    refine same rfl rfl (fun q k now => ?_) (by simp)
    obtain ⟨rfl,rfl⟩ := Role.reading.inj now
    exact ⟨connected,core⟩
  | doRead p sock => exact same rfl rfl keyed.reading (by simp)
  | accept sock nonneg unused listening => exact absurd rfl serving.1
  | add sock registered absent registers => exact absurd rfl (serving.2 sock)
  | leak sock core present => exact absurd rfl (serving.2 sock)
  | closeAccepted sock => exact absurd rfl (serving.2 sock)
  | disconnect fd p sock connected found core =>
    refine ⟨fun q k valid near live => ?_,keyed.absent,by simp,fun stage q k now => ?_⟩
    · have differs : q ≠ p := by
        rintro rfl
        simp [Table.record,Table.setCore] at live
      exact seen near (by simpa [differs,Table.record,Table.setCore] using live)
    · obtain ⟨_,rfl,rfl⟩ := Role.removing.inj now
      simp [Table.record,Table.setCore]
  | removeFD p sock => exact same rfl rfl (by simp) (fun _ q k now => ⟨.deleteFD,sock,by simp [(Role.removing.inj now).2.1]⟩)
  | removeClose p sock =>
    exact closed (T.closes_closeFD sock) (by simp) (fun _ q k now => ⟨.close,sock,by simp [(Role.removing.inj now).2.1]⟩)
  | removeDelete p sock =>
    refine ⟨fun q k valid near live => ?_,keyed.absent,by simp,fun stage q k now => ?_⟩
    · have differs : q ≠ p := by
        rintro rfl
        simp [Table.setCore] at live
      exact seen near (by simpa [differs,Table.setCore] using live)
    · obtain ⟨_,rfl,rfl⟩ := Role.removing.inj now
      simp [Table.setCore]
  | removeErase p sock =>
    refine ⟨fun q k valid near live => ?_,fun k q notify member => ?_,by simp,by simp⟩
    · have found := seen near live
      have differs : k ≠ sock := by
        rintro rfl
        obtain rfl : p = q := Option.some.inj ((entered.removing _ _ _ rfl).symm.trans found)
        exact keyed.removing _ _ _ rfl k valid live
      simpa [differs] using found
    · by_cases erased : k = sock
      · simp [erased]
      · simpa [erased] using keyed.absent k q notify member
  | _ => exact same rfl rfl (by simp) (by simp)

private theorem adding_before {t : Nat} {task' : Task} {p : Ptr} (now : ∃ k notify, Task.adding k p notify ∈ tasks.set t task')
    (other : ∀ k notify, task' ≠ .adding k p notify) : ∃ k notify, Task.adding k p notify ∈ tasks := by
  obtain ⟨k,notify,listed⟩ := now
  rcases List.mem_or_eq_of_mem_set listed with old | same
  · exact ⟨k,notify,old⟩
  · exact absurd same.symm (other k notify)

private theorem Keyed.absent_before (keyed : Keyed ⟨T,role,pending,false,tasks⟩) {t : Nat} {task' : Task}
    (other : ∀ sock p notify, task' ≠ .inserting sock p notify) (sock : SOCKET) (p : Ptr) (notify : Bool)
    (listed : Task.inserting sock p notify ∈ tasks.set t task') : T.find sock = none := by
  rcases List.mem_or_eq_of_mem_set listed with old | same
  · exact keyed.absent sock p notify old
  · exact absurd same.symm (other sock p notify)

/-- The object that a thread makes is new to everybody. -/
private theorem Keyed.prepare (keyed : Keyed ⟨T,role,pending,false,tasks⟩) (sound : Sound ⟨T,role,pending,false,tasks⟩)
    {t : Nat} (sock : SOCKET) (valid notify : Bool) :
    Keyed ⟨T.alloc (invalidSocket,valid,notify),role,pending,false,tasks.set t (.counting sock T.nextPtr notify)⟩ := by
  have old {p : Ptr} (near : Visible ⟨T,role,pending,false,tasks⟩ p ∨ ∃ k notify, Task.adding k p notify ∈ tasks) :
      p ≠ T.nextPtr := by
    rcases near with visible | ⟨k,notify,listed⟩
    · exact (sound.visible p visible).ne
    · exact (sound.object _ listed p rfl).ne
  have handled {p : Ptr} (object : role.object = some p) : (T.alloc (invalidSocket,valid,notify)).core p = T.core p :=
    Function.update_of_ne (old (.inl (.inl (.inr (.inr object))))) _ _
  refine ⟨fun p k connected near live => ?_,keyed.absent_before (by simp),fun p k now => ?_,fun stage p k now => ?_⟩
  · have near' : Visible ⟨T,role,pending,false,tasks⟩ p ∨ ∃ k notify, Task.adding k p notify ∈ tasks :=
      near.imp id (fun now => adding_before now (by simp))
    exact keyed.entered p k connected near' (by simpa [Table.alloc,Table.setCore,old near'] using live)
  · rw [handled (congrArg Role.object now)]
    exact keyed.reading p k now
  · rw [handled (congrArg Role.object now)]
    exact keyed.removing stage p k now

/-- A thread enters the object in the map, where no other thread is about to enter one for the socket. -/
private theorem Keyed.insert (keyed : Keyed ⟨T,role,pending,false,tasks⟩) (sound : Sound ⟨T,role,pending,false,tasks⟩)
    {t : Nat} {sock : SOCKET} {p : Ptr} {notify : Bool} {find : SOCKET → Option Ptr}
    (alone : ∀ (u : Nat) (q : Ptr) (n : Bool), tasks[u]? = some (.inserting sock q n) → u = t)
    (inserts : find = T.find ∨ T.find sock = none ∧ find = Function.update T.find sock (some p)) (entered : find sock = some p)
    (found : tasks[t]? = some (.inserting sock p notify)) :
    Keyed ⟨{T.setCore p ((T.core p).map (fun core => (sock,true,core.2.2))) with find := find},role,pending,false,
      tasks.set t (.adding sock p notify)⟩ := by
  have member := List.mem_of_getElem? found
  have missing : T.find sock = none := keyed.absent sock p notify member
  have others {k : SOCKET} (differs : k ≠ sock) : find k = T.find k := by
    rcases inserts with rfl | ⟨_,rfl⟩
    · rfl
    · exact Function.update_of_ne differs _ _
  have hidden : ¬ Visible ⟨T,role,pending,false,tasks⟩ p := sound.making _ member p rfl
  have handled {q : Ptr} (object : role.object = some q) :
      (T.setCore p ((T.core p).map (fun core => (sock,true,core.2.2)))).core q = T.core q := by
    refine Function.update_of_ne ?_ _ _
    rintro rfl
    exact hidden (.inl (.inr (.inr object)))
  refine ⟨fun q k connected near live => ?_,fun k q n listed => ?_,fun q k now => ?_,fun stage q k now => ?_⟩
  · by_cases mine : q = p
    · subst mine
      obtain rfl : sock = k := by
        simp [Table.setCore] at live
        exact live.2
      exact entered
    · have near' : Visible ⟨T,role,pending,false,tasks⟩ q ∨ ∃ k notify, Task.adding k q notify ∈ tasks := by
        rcases near with ((⟨fd,at_fd⟩ | later) | listed) | now
        · have differs : fd ≠ sock := by
            rintro rfl
            exact mine (Option.some.inj (at_fd.symm.trans entered))
          exact .inl (.inl (.inl ⟨fd,(others differs).symm.trans at_fd⟩))
        · exact .inl (.inl (.inr later))
        · exact .inl (.inr listed)
        · exact .inr (adding_before now (fun fd n same => mine (Task.adding.inj same).2.1.symm))
      have at_k : T.find k = some q := keyed.entered q k connected near' (by simpa [Table.setCore,mine] using live)
      have differs : k ≠ sock := by
        rintro rfl
        simp [missing] at at_k
      exact (others differs).trans at_k
  · obtain ⟨u,at_u⟩ := List.mem_iff_getElem?.mp listed
    rcases getElem?_of_set found at_u with ⟨_,same⟩ | ⟨differs,was⟩
    · simp at same
    · have other : k ≠ sock := by
        rintro rfl
        exact differs (alone u q n was)
      exact (others other).trans (keyed.absent k q n (List.mem_of_getElem? was))
  · rw [show Table.core _ q = T.core q from handled (congrArg Role.object now)]
    exact keyed.reading q k now
  · rw [show Table.core _ q = T.core q from handled (congrArg Role.object now)]
    exact keyed.removing stage q k now

private theorem Keyed.call (keyed : Keyed ⟨T,role,pending,false,tasks⟩) (sound : Sound ⟨T,role,pending,false,tasks⟩)
    {t : Nat} {task task' : Task}
    (alone : ∀ (u u' : Nat) (sock : SOCKET) (p q : Ptr) (n m : Bool), tasks[u]? = some (.inserting sock p n) →
      tasks[u']? = some (.inserting sock q m) → u = u')
    (enters : ∀ sock p notify, task = .inserting sock p notify → task' = .adding sock p notify → T.find sock = none →
      T'.find sock = some p) (found : tasks[t]? = some task) (call : Table.Call T false task T' task') :
    Keyed ⟨T',role,pending,false,tasks.set t task'⟩ := by
  have member := List.mem_of_getElem? found
  have same (find : T'.find = T.find) (core : T'.core = T.core)
      (fewer : ∀ fd p, T'.registered fd = some p → T.registered fd = some p ∨ ∃ k notify, task = .adding k p notify)
      (adds : ∀ k p notify, task' ≠ .adding k p notify) (inserts : ∀ sock p notify, task' ≠ .inserting sock p notify) :
      Keyed ⟨T',role,pending,false,tasks.set t task'⟩ := by
    refine ⟨fun p sock connected near live => ?_,?_,core ▸ keyed.reading,core ▸ keyed.removing⟩
    · dsimp only at live ⊢
      rw [find]
      refine keyed.entered p sock connected ?_ (core ▸ live)
      rcases near with ((⟨k,at_k⟩ | ⟨fd,registered⟩ | object) | member) | now
      · exact .inl (.inl (.inl ⟨k,find ▸ at_k⟩))
      · rcases fewer fd p registered with old | ⟨k,notify,rfl⟩
        · exact .inl (.inl (.inr (.inl ⟨fd,old⟩)))
        · exact .inr ⟨k,notify,member⟩
      · exact .inl (.inl (.inr (.inr object)))
      · exact .inl (.inr member)
      · exact .inr (adding_before now (adds · p ·))
    · rw [find]
      exact keyed.absent_before inserts
  have closed (closes : T.Closes T') (adds : ∀ k p notify, task' ≠ .adding k p notify)
      (inserts : ∀ sock p notify, task' ≠ .inserting sock p notify) : Keyed ⟨T',role,pending,false,tasks.set t task'⟩ := by
    obtain ⟨_,_,rfl,_,fewer⟩ := closes
    exact same rfl rfl (fun fd p now => .inl (fewer fd p now)) adds inserts
  have after (notify : Bool) (sock : SOCKET) (p : Ptr) : (∀ k q n, afterAdd notify sock p ≠ .adding k q n) ∧
      ∀ k q n, afterAdd notify sock p ≠ .inserting k q n := by
    cases notify <;> simp [afterAdd]
  cases call with
  | rest _ =>
    obtain ⟨bound,rfl⟩ := List.getElem?_eq_some_iff.mp found
    rw [List.set_getElem_self]
    exact keyed
  | fail => exact same rfl rfl (fun _ _ => .inl) (by simp) (by simp)
  | connect kind => exact same rfl rfl (fun _ _ => .inl) (by simp) (by simp)
  | openFD sock unused => exact same rfl rfl (fun _ _ => .inl) (by simp) (by simp)
  | closeFD sock => exact closed (T.closes_closeFD sock) (by simp) (by simp)
  | prepare sock valid notify => exact keyed.prepare sound sock valid notify
  | present sock p notify found => exact same rfl rfl (fun _ _ => .inl) (after notify sock p).1 (after notify sock p).2
  | absent sock p notify missing =>
    refine ⟨fun q k connected near live => ?_,fun k q notify listed => ?_,keyed.reading,keyed.removing⟩
    · exact keyed.entered q k connected (near.imp id (fun now => adding_before now (by simp))) live
    · rcases List.mem_or_eq_of_mem_set listed with old | same
      · exact keyed.absent k q notify old
      · obtain ⟨rfl,_⟩ := Task.inserting.inj same
        exact missing
  | insert sock p notify find inserts =>
    exact keyed.insert sound (fun u q n at_u => alone u t sock q p n notify at_u found) inserts
      (enters sock p notify rfl rfl (keyed.absent sock p notify member)) found
  | addFD sock p notify registered registers =>
    refine same rfl rfl (fun fd q now => ?_) (after notify sock p).1 (after notify sock p).2
    rcases registers with rfl | ⟨_,rfl⟩
    · exact .inl now
    · by_cases mine : fd = sock
      · obtain rfl : p = q := by simpa [mine] using now
        exact .inr ⟨sock,notify,rfl⟩
      · exact .inl (by simpa [mine] using now)
  | announce sock p => exact same rfl rfl (fun _ _ => .inl) (by simp) (by simp)
  | closeListenSocket => exact closed (T.closes_closeFD T.listenSocket) (by simp) (by simp)
  | closeFds _ finished closes => cases finished
  | release core registered finished fewer unregistered => cases finished

theorem Step.keyed {v v' : View} (step : Step v v') (sound : v.Sound) (entered : v.Entered)
    (serving : v.role ≠ .accepting ∧ ∀ sock, v.role ≠ .holding sock)
    (alone : ∀ (t u : Nat) (sock : SOCKET) (p q : Ptr) (n m : Bool), v.tasks[t]? = some (.inserting sock p n) →
      v.tasks[u]? = some (.inserting sock q m) → t = u)
    (enters : ∀ (t : Nat) (sock : SOCKET) (p : Ptr) (notify : Bool), v.tasks[t]? = some (.inserting sock p notify) →
      v'.tasks[t]? = some (.adding sock p notify) → v.table.find sock = none → v'.table.find sock = some p)
    (working : v'.exited = false) (keyed : v.Keyed) : v'.Keyed := by
  cases step with
  | stutter => exact keyed
  | deliver T pending tasks told =>
    refine ⟨fun p sock connected near core => keyed.entered p sock connected (near.imp_left (fun visible => ?_)) core,
      keyed.absent,by simp,by simp⟩
    rcases visible with shows | member
    · exact .inl shows
    · exact .inl (.inr (.inl (told p member)))
  | event T p pending tasks =>
    refine ⟨fun q sock connected near core => keyed.entered q sock connected (near.imp_left (fun visible => ?_)) core,
      keyed.absent,by simp,by simp⟩
    rcases visible with (at_sock | registered | object) | member
    · exact .inl (.inl at_sock)
    · exact .inl (.inr (.inl registered))
    · exact .inr (by simp [Option.some.inj object])
    · exact .inr (by simp [member])
  | command T fd p pending tasks found =>
    refine ⟨fun q sock connected near core => keyed.entered q sock connected (near.imp_left (fun visible => ?_)) core,
      keyed.absent,by simp,by simp⟩
    rcases visible with (at_sock | registered | object) | member
    · exact .inl (.inl at_sock)
    · exact .inl (.inr (.inl registered))
    · exact .inl (.inl ⟨fd,Option.some.inj object ▸ found⟩)
    · exact .inr member
  | exit T tasks => simp at working
  | work T role pending tasks T' role' work => exact keyed.work sound entered serving work
  | call T role pending exited tasks t task T' task' found call =>
    dsimp only at working
    subst working
    refine keyed.call sound alone (fun k q n before after missing => ?_) found call
    subst before after
    exact enters t k q n found (List.getElem?_set_self (List.getElem?_eq_some_iff.mp found).1) missing

end View

namespace Sys

theorem holds_inserting {c : Caller} {sock : SOCKET} {p : Ptr} {notify : Bool} (inserting : c.task = .inserting sock p notify) :
    c.holds = some sock := by
  induction c with
  | trigger cmd fd next ih => exact ih inserting
  | evtWrite next ih => exact ih inserting
  | insert k q n => rw [Caller.holds,(Task.inserting.inj inserting).1]
  | _ => simp [Caller.task] at inserting

theorem task_at {s : Sys} {t : Nat} {task : Task} (at_t : s.view.tasks[t]? = some task) :
    ∃ c, s.callers[t]? = some c ∧ c.task = task := by
  simpa [view] using at_t

theorem insert_enters {s next : Sys} {act : Act} (taken : s.step act = some next) {t : Nat} {sock : SOCKET} {p : Ptr} {notify : Bool}
    (before : s.view.tasks[t]? = some (.inserting sock p notify)) (after : next.view.tasks[t]? = some (.adding sock p notify))
    (missing : s.view.table.find sock = none) : next.view.table.find sock = some p := by
  obtain ⟨at_t,⟨reply,rfl⟩,_⟩ := inserting_step taken before after
  have table := s.host.table_insertSocketObject sock p
  have absent : s.host.table.find sock = none := missing
  simp only [step,at_t,Option.bind_some] at taken
  split at taken
  · cases reply with
    | done =>
      obtain rfl := Option.some.inj taken
      simp [view,setCaller,table,absent]
    | _ => cases taken
  · cases taken

theorem run_keyed {config : Config} {acts : List Act} {s : Sys} (run : Run config acts s) (kind : config.kind ≠ .tcpServer)
    (working : s.worker ≠ .exited) : s.view.Keyed := by
  refine Transition.exec_induction (I := fun _ (s : Sys) => s.worker ≠ .exited → s.view.Keyed) (fun _ => View.started_keyed config)
    (fun acts s act next run keyed taken working => ?_) run working
  have working' := step_working taken working
  have inv := run_inv run
  have owns := run_owns run (by rwa [run_kind run]) working'
  refine (view_step inv.control taken).keyed inv.sound inv.entered owns.owned.serving (fun t u sock p q n m at_t at_u => ?_)
    (fun t sock p notify before after missing => insert_enters taken before after missing) (by simpa [view] using working) (keyed working')
  obtain ⟨c,at_t,inserting⟩ := task_at at_t
  obtain ⟨d,at_u,inserting'⟩ := task_at at_u
  exact owns.alone t u c d sock at_t at_u (holds_inserting inserting) (holds_inserting inserting')

section connections

variable {config : Config} {acts : List Act} {s : Sys}

theorem reads_entry (run : Run config acts s) (kind : config.kind ≠ .tcpServer) {p : Ptr} {sock : SOCKET} {events : UInt32} {ctx : Ctx}
    (at_read : s.worker = .read p sock events ctx) : ∃ object, s.Connection sock p object ∧ object.socketId = sock := by
  have keyed := run_keyed run kind (by simp [at_read])
  have role : s.view.role = .reading p sock := by simp [view,at_read,Worker.role]
  obtain ⟨connected,core⟩ := keyed.reading p sock role
  have found := keyed.entered p sock connected (.inl (.inl (.inr (.inr (by rw [role,Role.object]))))) core
  obtain ⟨object,live,same⟩ := Option.map_eq_some_iff.mp core
  simp only [SocketObject.core,Prod.mk.injEq] at same
  exact ⟨object,⟨found,live,same.2.1⟩,same.1⟩

theorem writes_entry (run : Run config acts s) (kind : config.kind ≠ .tcpServer) {p : Ptr} {ctx : Ctx} {object : SocketObject}
    (at_w : s.worker = .sendPacket p ctx) (live : s.host.heap p = some object) : s.Connection object.socketId p object := by
  have valid := run_sends run p (by rw [at_w,Worker.handlesSend])
  have valid : object.fValid = true := by simpa [Host.isValid,live] using valid
  have core : s.view.table.core p = some (object.socketId,true,object.connectState) := by
    simp [view,Host.table,live,SocketObject.core,valid]
  have held : s.view.role.object = some p := by simp [view,at_w,Worker.role,Role.object]
  exact ⟨(run_keyed run kind (by simp [at_w])).entered p _ _ (.inl (.inl (.inr (.inr held)))) core,live,valid⟩

/-- The worker of a `TcpClient` or a `UdpServer` reads and writes on the open socket of a valid connection of the map. -/
theorem owned_io (run : Run config acts s) (kind : config.kind ≠ .tcpServer) {p : Ptr} {sock : SOCKET}
    (io : s.worker.io s.host = some (p,sock)) :
    s.host.isOpen sock = true ∧ ∃ object, s.Connection sock p object ∧ object.socketId = sock := by
  have entry : s.worker ≠ .exited ∧ s.worker.role.closing sock = false ∧ ∃ object, s.Connection sock p object ∧ object.socketId = sock := by
    unfold Worker.io at io
    split at io
    · rename_i q k events ctx at_w
      obtain ⟨rfl,rfl⟩ : q = p ∧ k = sock := by simpa using io
      exact ⟨by simp [at_w],by simp [at_w,Worker.role,Role.closing],reads_entry run kind at_w⟩
    · rename_i q ctx at_w
      obtain ⟨object,live,named⟩ := Option.map_eq_some_iff.mp io
      obtain ⟨rfl,rfl⟩ : q = p ∧ object.socketId = sock := by simpa using named
      exact ⟨by simp [at_w],by simp [at_w,Worker.role,Role.closing],object,writes_entry run kind at_w live,rfl⟩
    · cases io
  obtain ⟨working,open_,object,connection,named⟩ := entry
  have owns := run_owns run (by rwa [run_kind run]) working
  have keys := owns.owned.keys sock (by simp [Host.table,connection.found])
  exact ⟨keys.resolve_right (by simp [open_]),object,connection,named⟩

/-- A datagram on a socket that a thread has added. -/
def readableSocket : List Act :=
  [.connect 1 .addUdpSocket [],.caller 1 (.fd 7),.caller 1 (.object .blank 0)] ++ List.replicate 4 (.caller 1 .done) ++
    [.epollPwait (.ok [(7,epollin)]),.worker,.beforeIo (.ok 0) 0,.readyRead 0]

theorem readable_socket_io : ∃ s object, Run (.plain .udpServer 2) readableSocket s ∧ s.worker.io s.host = some (0,7) ∧
    s.host.isOpen 7 = true ∧ s.Connection 7 0 object := by
  obtain ⟨s,run,io⟩ := run_reaches (.plain .udpServer 2) readableSocket (fun s => s.worker.io s.host = some (0,7)) (by decide +kernel)
  obtain ⟨opened,object,connection,_⟩ := owned_io run (by decide) io
  exact ⟨s,object,run,io,opened,connection⟩

end connections

end Sys

end LightServer
