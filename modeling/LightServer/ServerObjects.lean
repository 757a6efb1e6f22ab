import LightServer.SendCalls
import LightServer.ServerSockets
import LightServer.SilenceSweep

/-! The connection objects of a `TcpServer`: which of them are in memory, and the sockets on which
the worker reads and writes for them. -/
namespace LightServer

/-- The object and the fd of the `read` or `write` that the worker is about to make. -/
def Worker.io (h : Host) : Worker → Option (Ptr × SOCKET)
  | .read p sock _ _ => some (p,sock)
  | .sendPacket p _ => (h.heap p).map (fun object => (p,object.socketId))
  | _ => none

namespace View

/-- An object is in memory only as an entry of the map; the entry that is erased last is gone already. -/
structure Housed (v : View) : Prop where
  entry : ∀ p sock valid connected, v.table.core p = some (sock,valid,connected) → v.table.find sock = some p
  erased : ∀ p sock, v.role = .removing .erase p sock → v.table.core p = none

theorem started_housed (config : Config) : Housed config.started.view :=
  ⟨fun p sock valid connected core => by simp [Sys.view,Host.table,Config.started] at core,
    by simp [Sys.view,Config.started,Worker.role]⟩

variable {T T' : Table} {role role' : Role} {pending : List Ptr} {exited : Bool} {tasks : List Task}

private theorem Housed.work (housed : Housed ⟨T,role,pending,false,tasks⟩) (sound : Sound ⟨T,role,pending,false,tasks⟩)
    (entered : Entered ⟨T,role,pending,false,tasks⟩) (serving : Serving ⟨T,role,pending,false,tasks⟩)
    (apart : ∀ sock, role = .holding sock → T.find sock = none) (work : Table.Work T role T' role') :
    Housed ⟨T',role',pending,false,tasks⟩ := by
  obtain ⟨entry,erased⟩ := housed
  dsimp only at entry erased
  have same (find : T'.find = T.find) (core : T'.core = T.core) (other : ∀ p sock, role' ≠ .removing .erase p sock) :
      Housed ⟨T',role',pending,false,tasks⟩ := by
    refine ⟨fun p sock valid connected live => ?_,fun p sock removes => absurd removes (other p sock)⟩
    dsimp only at live ⊢
    rw [find]
    exact entry p sock valid connected (core ▸ live)
  have closed (closes : T.Closes T') (other : ∀ p sock, role' ≠ .removing .erase p sock) : Housed ⟨T',role',pending,false,tasks⟩ := by
    obtain ⟨_,_,rfl,_,_⟩ := closes
    exact same rfl rfl other
  cases work with
  | rest _ _ settled later =>
    refine same rfl rfl (fun p sock removes => ?_)
    rcases later with rfl | rfl | ⟨q,k,_,rfl⟩
    · subst removes
      simp [Role.settled] at settled
    · cases removes
    · cases removes
  | connect p sock _ kind core later => simp [show T.kind = .tcpServer from serving.kind] at kind
  | add sock registered absent registers =>
    refine ⟨fun q k valid connected live => ?_,by simp⟩
    dsimp only [Table.alloc,Table.setCore] at live ⊢
    by_cases new : q = T.nextPtr
    · subst new
      obtain ⟨rfl,_,_⟩ : sock = k ∧ _ := by simpa using live
      exact Function.update_self _ _ _
    · have old : T.core q = some (k,valid,connected) := by simpa [new] using live
      have found := entry q k valid connected old
      have differs : k ≠ sock := by
        rintro rfl
        simp [absent] at found
      rwa [Function.update_of_ne differs]
  | leak sock core present => simp [apart sock rfl] at present
  | closeAccepted sock => exact closed (T.closes_closeFD sock) (by simp)
  | disconnect fd p sock connected found core =>
    refine ⟨fun q k valid connected' live => ?_,by simp⟩
    dsimp only [Table.record,Table.setCore] at live ⊢
    by_cases removed : q = p
    · subst removed
      obtain ⟨rfl,_,_⟩ : sock = k ∧ _ := by simpa using live
      exact entry q sock true connected core
    · exact entry q k valid connected' (by simpa [removed] using live)
  | removeClose p sock => exact closed (T.closes_closeFD sock) (by simp)
  | removeDelete p sock =>
    refine ⟨fun q k valid connected live => ?_,fun q k removes => ?_⟩
    · dsimp only [Table.setCore] at live ⊢
      by_cases removed : q = p
      · simp [removed] at live
      · exact entry q k valid connected (by simpa [removed] using live)
    · obtain ⟨_,rfl,rfl⟩ := Role.removing.inj removes
      simp [Table.setCore]
  | removeErase p sock =>
    refine ⟨fun q k valid connected live => ?_,by simp⟩
    have found := entry q k valid connected live
    have differs : k ≠ sock := by
      rintro rfl
      have at_sock : T.find k = some p := entered.removing _ _ _ rfl
      obtain rfl : q = p := Option.some.inj (found.symm.trans at_sock)
      simp [erased q k rfl] at live
    dsimp only
    rwa [Function.update_of_ne differs]
  | _ => exact same rfl rfl (by simp)

theorem Step.housed {v v' : View} (step : Step v v') (sound : v.Sound) (entered : v.Entered) (serving : v.Serving)
    (apart : ∀ sock, v.role = .holding sock → v.table.find sock = none) (working : v'.exited = false) (housed : v.Housed) : v'.Housed := by
  cases step with
  | work T role pending tasks T' role' work => exact housed.work sound entered serving apart work
  | call T role pending exited tasks t task T' task' found call =>
    have alone : task = .other := serving.tasks task (List.mem_of_getElem? found)
    have unfinished : exited ≠ true := by simp [show exited = false from working]
    cases call with
    | rest => exact ⟨housed.entry,housed.erased⟩
    | connect kind => exact absurd serving.kind kind
    | closeListenSocket =>
      obtain ⟨_,_,same,_,_⟩ := T.closes_closeFD T.listenSocket
      rw [same]
      exact ⟨housed.entry,housed.erased⟩
    | release core registered finished fewer unregistered => exact absurd finished unfinished
    | closeFds T' finished closes => exact absurd finished unfinished
    | _ => cases alone
  | event T p pending tasks => exact ⟨housed.entry,by simp⟩
  | command T fd p pending tasks found => exact ⟨housed.entry,by simp⟩
  | _ => exact ⟨housed.entry,housed.erased⟩

end View

namespace Sys

/-- The memory of a `TcpServer` at work. -/
structure Kept (base : FD → Bool) (s : Sys) (lost : List Loss) : Prop where
  balance : Balance base s lost
  housed : s.worker ≠ .exited → s.view.Housed
  sending : ∀ p, s.worker.handlesSend = some p → s.host.isValid (some p) = true

theorem handlesSend_role {s : Sys} {p : Ptr} (inside : s.worker.handlesSend = some p) : s.worker.role = .handling p := by
  cases at_w : s.worker <;> simp_all [Worker.handlesSend,Worker.role]

theorem core_valid {h : Host} {p : Ptr} : h.isValid (some p) = true ↔ ∃ sock connected, h.table.core p = some (sock,true,connected) := by
  cases live : h.heap p <;> simp [Host.isValid,Host.table,SocketObject.core,live]

theorem sends_step {s next : Sys} {act : Act} (inv : s.Inv)
    (sending : ∀ p, s.worker.handlesSend = some p → s.host.isValid (some p) = true) (taken : s.step act = some next) {p : Ptr}
    (inside : next.worker.handlesSend = some p) : next.host.isValid (some p) = true := by
  by_cases before : s.worker.handlesSend = some p
  · have role := handlesSend_role before
    have same := (view_step inv.control taken).core_held inv.sound (p := p) (by simp [view,role,Role.object])
      (by simp [view,role,Role.settled]) (by simp [view,role])
    have valid := core_valid.mp (sending p before)
    refine core_valid.mpr ?_
    rwa [show next.host.table.core p = s.host.table.core p from same]
  · cases step_taken taken with
    | worker act host worker idle move =>
      rcases move.enters inside with same | ⟨rfl,valid⟩
      · exact absurd same before
      · exact valid
    | _ => exact absurd inside before

theorem run_sends {config : Config} {acts : List Act} {s : Sys} (run : Run config acts s) (p : Ptr)
    (inside : s.worker.handlesSend = some p) : s.host.isValid (some p) = true := by
  refine Transition.exec_induction (I := fun _ s => ∀ p, s.worker.handlesSend = some p → s.host.isValid (some p) = true)
    (by simp [Config.started,Worker.handlesSend]) (fun acts s act next run sending taken p inside => ?_) run p inside
  exact sends_step (run_inv run) sending taken inside

theorem Kept.step {base : FD → Bool} {s next : Sys} {act : Act} {lost : List Loss} (kept : Kept base s lost)
    (taken : s.step act = some next) : Kept base next (lost ++ losses s act) := by
  obtain ⟨balance,housed,sending⟩ := kept
  refine ⟨balance.step taken,fun working => ?_,fun p inside => sends_step balance.inv sending taken inside⟩
  have working' := step_working taken working
  exact (view_step balance.inv.control taken).housed balance.inv.sound balance.inv.entered balance.serving
    (fun sock held => ((balance.accounted working').apart sock (.inr held)).1) (by simpa [view] using working) (housed working')

theorem run_kept {config : Config} {acts : List Act} {s : Sys} (run : Run config acts s) (server : config.kind = .tcpServer) :
    Kept config.isOpen s (Transition.trace Sys.step losses config.started acts) := by
  have started : Kept config.isOpen config.started [] :=
    ⟨run_balance (show Run config [] config.started from rfl) server,fun _ => View.started_housed config,by simp [Config.started,Worker.handlesSend]⟩
  simpa using Transition.trace_invariant (fun _ _ _ _ kept taken => kept.step taken) started run

section memory

variable {config : Config} {acts : List Act} {s : Sys}

/-- The objects that a working `TcpServer` has in memory are those of its map, each under its own socket;
only the entry whose erasure is next has none any more. -/
theorem objects_accounted (run : Run config acts s) (server : config.kind = .tcpServer) (working : s.worker ≠ .exited)
    (sock : SOCKET) (p : Ptr) : (∃ object, s.host.heap p = some object ∧ object.socketId = sock) ↔
      s.host.findSocketObject sock = some p ∧ s.worker.role ≠ .removing .erase p sock := by
  obtain ⟨balance,housed,_⟩ := run_kept run server
  constructor
  · rintro ⟨object,live,rfl⟩
    have core : s.view.table.core p = some object.core := by simp [view,Host.table,live]
    refine ⟨(housed working).entry p _ _ _ core,fun erases => ?_⟩
    have gone : s.view.table.core p = none := (housed working).erased p object.socketId erases
    simp [gone] at core
  · rintro ⟨found,kept⟩
    obtain ⟨valid,connected,core⟩ := (balance.inv.entered.named sock p found).resolve_right kept
    obtain ⟨object,live,same⟩ := Option.map_eq_some_iff.mp core
    exact ⟨object,live,congrArg Prod.fst same⟩

theorem mixed_objects_accounted : ∃ s, Run (.plain .tcpServer 1) mixedAccepts s ∧ s.host.findSocketObject 8 = some 0 ∧
    ((∃ object, s.host.heap 0 = some object ∧ object.socketId = 8) ↔
      s.host.findSocketObject 8 = some 0 ∧ s.worker.role ≠ .removing .erase 0 8) := by
  obtain ⟨s,run,found,working⟩ := run_reaches (.plain .tcpServer 1) mixedAccepts
    (fun s => s.host.findSocketObject 8 = some 0 ∧ s.worker ≠ .exited) (by decide +kernel)
  exact ⟨s,run,found,objects_accounted run rfl working 8 0⟩

/-- The worker of a `TcpServer` reads and writes on the open socket of a valid connection of the map. -/
theorem io_on_own_socket (run : Run config acts s) (server : config.kind = .tcpServer) {p : Ptr} {sock : SOCKET}
    (io : s.worker.io s.host = some (p,sock)) :
    config.isOpen sock = false ∧ s.host.isOpen sock = true ∧ ∃ object, s.Connection sock p object ∧ object.socketId = sock := by
  obtain ⟨balance,housed,sending⟩ := run_kept run server
  have handled : ∃ object, s.host.heap p = some object ∧ object.socketId = sock ∧ object.fValid = true ∧
      s.worker ≠ .exited ∧ s.worker.role.closing sock = false := by
    unfold Worker.io at io
    split at io
    · rename_i q k events ctx at_w
      obtain ⟨rfl,rfl⟩ : q = p ∧ k = sock := by simpa using io
      obtain ⟨connected,core⟩ := balance.serving.reading q k (by simp [view,at_w,Worker.role])
      obtain ⟨object,live,same⟩ := Option.map_eq_some_iff.mp core
      simp only [SocketObject.core,Prod.mk.injEq] at same
      exact ⟨object,live,same.1,same.2.1,by simp [at_w],by simp [at_w,Worker.role,Role.closing]⟩
    · rename_i q ctx at_w
      obtain ⟨object,live,named⟩ := Option.map_eq_some_iff.mp io
      obtain ⟨rfl,rfl⟩ : q = p ∧ object.socketId = sock := by simpa using named
      have valid := sending q (by rw [at_w,Worker.handlesSend])
      exact ⟨object,live,rfl,by simpa [Host.isValid,live] using valid,by simp [at_w],by simp [at_w,Worker.role,Role.closing]⟩
    · cases io
  obtain ⟨object,live,rfl,valid,working,open_⟩ := handled
  have core : s.view.table.core p = some object.core := by simp [view,Host.table,live]
  have found : s.host.findSocketObject object.socketId = some p := (housed working).entry p _ _ _ core
  have accounted := balance.accounted working
  have fresh : config.isOpen object.socketId = false := (Bool.not_eq_true _).mp (fun theirs => by
    have missing : s.host.findSocketObject object.socketId = none := (accounted.away _ theirs).1
    simp [found] at missing)
  have opened : s.host.isOpen object.socketId = true := (accounted.opened _ fresh).mpr
    (.inl ⟨by simp [view,Host.table,found],open_⟩)
  exact ⟨fresh,opened,object,⟨found,live,valid⟩,rfl⟩

/-- A connection whose bytes the worker reads while a message for it waits. -/
def readsFirst : List Act :=
  connectionBurst 1 ++ [.send 1 7 ⟨none,0,0,0,0,[]⟩ [1,2,3],.epollPwait (.ok [(7,epollin ||| epollout)]),.worker,.beforeIo (.ok 0) 0,
    .readyRead 0]

theorem reads_first_on_own_socket :
    (∃ s, Run (.plain .tcpServer 2) readsFirst s ∧ s.worker.io s.host = some (0,7) ∧ ∃ object, s.Connection 7 0 object) ∧
      ∃ s, Run (.plain .tcpServer 2) (readsFirst ++ [.read (.error ewouldblock) [] 0,.worker,.worker]) s ∧
        s.worker.io s.host = some (0,7) ∧ ∃ object, s.Connection 7 0 object := by
  constructor
  · obtain ⟨s,run,io⟩ := run_reaches (.plain .tcpServer 2) readsFirst (fun s => s.worker.io s.host = some (0,7)) (by decide +kernel)
    obtain ⟨_,_,object,connection,_⟩ := io_on_own_socket run rfl io
    exact ⟨s,run,io,object,connection⟩
  · obtain ⟨s,run,io⟩ := run_reaches (.plain .tcpServer 2) (readsFirst ++ [.read (.error ewouldblock) [] 0,.worker,.worker])
      (fun s => s.worker.io s.host = some (0,7)) (by decide +kernel)
    obtain ⟨_,_,object,connection,_⟩ := io_on_own_socket run rfl io
    exact ⟨s,run,io,object,connection⟩

end memory

end Sys

end LightServer
