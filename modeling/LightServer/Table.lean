import LightServer.Base.Session
import LightServer.Machine

/-! The connection table as an abstract machine: which object is registered under which
fd, what the callbacks said about it, and what each thread is doing to it. -/
namespace LightServer

section slots

variable {A : Type} {as : List A} {t u : Nat} {old new a : A}

/-- What is at a place of a list once one of its places has been set. -/
theorem getElem?_of_set (found : as[t]? = some old) (at_u : (as.set t new)[u]? = some a) :
    u = t ∧ a = new ∨ u ≠ t ∧ as[u]? = some a := by
  by_cases same : u = t
  · subst same
    rw [List.getElem?_set_self (List.getElem?_eq_some_iff.mp found).1] at at_u
    exact .inl ⟨rfl,(Option.some.inj at_u).symm⟩
  · rw [List.getElem?_set_ne (Ne.symm same)] at at_u
    exact .inr ⟨same,at_u⟩

theorem mem_of_set (found : as[t]? = some old) (member : a ∈ as.set t new) : a = new ∨ ∃ u, u ≠ t ∧ as[u]? = some a := by
  obtain ⟨u,at_u⟩ := List.mem_iff_getElem?.mp member
  rcases getElem?_of_set found at_u with ⟨_,same⟩ | ⟨differs,before⟩
  · exact .inl same
  · exact .inr ⟨u,differs,before⟩

end slots

/-- What the table machine sees of the process. `core` is socket, validity and connect state. -/
structure Table where
  kind : ServerKind
  listenSocket : SOCKET
  find : SOCKET → Option Ptr
  core : Ptr → Option (SOCKET × Bool × Bool)
  nextPtr : Ptr
  isOpen : FD → Bool
  registered : FD → Option Ptr
  calls : List (Ptr × SOCKET × Session.Call)

namespace Table

def record (p : Ptr) (sock : SOCKET) (call : Session.Call) (T : Table) : Table := {T with calls := T.calls ++ [(p,sock,call)]}

def setCore (p : Ptr) (core : Option (SOCKET × Bool × Bool)) (T : Table) : Table :=
  {T with core := Function.update T.core p core}

def unregister (fd : FD) (T : Table) : Table := {T with registered := Function.update T.registered fd none}

def openFD (fd : FD) (T : Table) : Table := {T with isOpen := Function.update T.isOpen fd true}

def closeFD (fd : FD) (T : Table) : Table :=
  if T.isOpen fd then {T.unregister fd with isOpen := Function.update T.isOpen fd false} else T

theorem isOpen_closeFD (fd : FD) (T : Table) : (T.closeFD fd).isOpen = Function.update T.isOpen fd false := by
  unfold closeFD
  split
  · rfl
  · rename_i closed
    rw [← (Bool.not_eq_true _).mp closed,Function.update_eq_self]

/-- `T'` is `T` with fds closed and registrations dropped. -/
def Closes (T T' : Table) : Prop :=
  ∃ isOpen registered, T' = {T with isOpen := isOpen, registered := registered} ∧
    (∀ fd, isOpen fd = true → T.isOpen fd = true) ∧ ∀ fd p, registered fd = some p → T.registered fd = some p

theorem Closes.refl (T : Table) : T.Closes T := ⟨_,_,rfl,fun _ => id,fun _ _ => id⟩

theorem Closes.trans {T T' next : Table} (first : T.Closes T') (second : T'.Closes next) : T.Closes next := by
  obtain ⟨_,_,rfl,closed,fewer⟩ := first
  obtain ⟨_,_,rfl,closed',fewer'⟩ := second
  exact ⟨_,_,rfl,fun fd => closed fd ∘ closed' fd,fun fd p => fewer fd p ∘ fewer' fd p⟩

theorem closes_unregister (T : Table) (fd : FD) : T.Closes (T.unregister fd) := by
  refine ⟨T.isOpen,_,rfl,fun _ => id,fun other p now => ?_⟩
  by_cases same : other = fd
  · simp [same] at now
  · simpa [same] using now

theorem closes_closeFD (T : Table) (fd : FD) : T.Closes (T.closeFD fd) := by
  unfold closeFD
  split
  · refine (T.closes_unregister fd).trans ⟨_,(T.unregister fd).registered,rfl,fun other now => ?_,fun _ _ => id⟩
    by_cases same : other = fd
    · simp [same] at now
    · simpa [unregister,same] using now
  · exact .refl T

/-- A new object in the state given. -/
def alloc (core : SOCKET × Bool × Bool) (T : Table) : Table := {T.setCore T.nextPtr (some core) with nextPtr := T.nextPtr+1}

end Table

/-- Callbacks are looked at by the fd, which may serve many connections, or by the connection. -/
inductive About
  | socket (sock : SOCKET)
  | object (p : Ptr)

namespace About

def selects : About → Ptr → SOCKET → Bool
  | .socket k, _, sock => sock = k
  | .object q, p, _ => p = q

def again : About → Bool
  | .socket _ => true
  | .object _ => false

end About

/-- The callbacks about an fd or a connection, in their order. -/
def Table.said (about : About) (T : Table) : List Session.Call :=
  T.calls.filterMap (fun entry => if about.selects entry.1 entry.2.1 then some entry.2.2 else none)

theorem Table.said_record (about : About) (p : Ptr) (sock : SOCKET) (call : Session.Call) (T : Table) :
    (T.record p sock call).said about = T.said about ++ if about.selects p sock then [call] else [] := by
  simp only [said,record,List.filterMap_append]
  cases selected : about.selects p sock <;> simp [selected]

theorem Table.said_other {about : About} {p : Ptr} {sock : SOCKET} {call : Session.Call} {T : Table}
    (other : ¬ about.selects p sock = true) : (T.record p sock call).said about = T.said about := by
  rw [said_record,if_neg other,List.append_nil]

/-- Nothing has been said about an object that no callback was for. -/
theorem Table.said_nothing {p : Ptr} {T : Table} (unheard : ∀ entry ∈ T.calls, entry.1 ≠ p) : T.said (.object p) = [] := by
  simp only [said,List.filterMap_eq_nil_iff]
  intro entry member
  simp [About.selects,unheard entry member]

/-- What the worker is doing to a connection. -/
inductive Role
  | free
  | dispatching (p : Ptr)
  | accepting
  | handling (p : Ptr)
  | reading (p : Ptr) (sock : SOCKET)
  | holding (sock : SOCKET)
  | announcing (p : Ptr) (sock : SOCKET)
  | removing (stage : RemoveStage) (p : Ptr) (sock : SOCKET)

/-- The object the worker goes on to touch. -/
def Role.object : Role → Option Ptr
  | .dispatching p | .handling p | .reading p _ | .announcing p _ | .removing _ p _ => some p
  | .free | .accepting | .holding _ => none

def Role.settled : Role → Bool
  | .announcing _ _ | .removing _ _ _ => false
  | _ => true

/-- What a thread inside a public function is doing to a connection. -/
inductive Task
  | other
  | connecting
  | counting (sock : SOCKET) (p : Ptr) (notify : Bool)
  | inserting (sock : SOCKET) (p : Ptr) (notify : Bool)
  | adding (sock : SOCKET) (p : Ptr) (notify : Bool)
  | announcing (sock : SOCKET) (p : Ptr)
  deriving DecidableEq

def afterAdd (notify : Bool) (sock : SOCKET) (p : Ptr) : Task := if notify then .announcing sock p else .other

namespace Table

/-- The steps of the worker. -/
inductive Work (T : Table) : Role → Table → Role → Prop
  | rest (role role') (settled : role.settled)
      (later : role' = role ∨ role' = .free ∨ ∃ p sock, role = .reading p sock ∧ role' = .handling p) : Work T role T role'
  | handle (p) (ready : T.kind = .tcpClient → ∃ sock valid, T.core p = some (sock,valid,true)) :
      Work T (.dispatching p) T (.handling p)
  | connect (p sock role') (kind : T.kind = .tcpClient) (core : T.core p = some (sock,true,false))
      (later : role' = .free ∨ role' = .handling p) :
      Work T (.dispatching p) ((T.setCore p (some (sock,true,true))).record p sock .opened) role'
  | startRead (p sock connected) (core : T.core p = some (sock,true,connected)) : Work T (.handling p) T (.reading p sock)
  | doRead (p sock) : Work T (.reading p sock) (T.record p sock .used) (.reading p sock)
  | listen (kind : T.kind = .tcpServer) : Work T .free T .accepting
  | accept (sock) (nonneg : 0 ≤ sock) (unused : T.isOpen sock = false) (listening : T.isOpen T.listenSocket = true) :
      Work T .accepting (T.openFD sock) (.holding sock)
  | add (sock registered) (absent : T.find sock = none)
      (registers : registered = T.registered ∨ registered = Function.update T.registered sock (some T.nextPtr)) :
      Work T (.holding sock)
        {T.alloc (sock,true,true) with find := Function.update T.find sock (some T.nextPtr), registered := registered}
        (.announcing T.nextPtr sock)
  | leak (sock core) (present : (T.find sock).isSome) : Work T (.holding sock) (T.alloc core) (.holding sock)
  | closeAccepted (sock) : Work T (.holding sock) (T.closeFD sock) .free
  | announce (p sock) : Work T (.announcing p sock) (T.record p sock .opened) .free
  | disconnect (fd p sock connected) (found : T.find fd = some p) (core : T.core p = some (sock,true,connected)) :
      Work T .free ((T.setCore p (some (sock,false,connected))).record p sock .closed) (.removing .deleteFD p sock)
  | removeFD (p sock) : Work T (.removing .deleteFD p sock) (T.unregister sock) (.removing .close p sock)
  | removeClose (p sock) : Work T (.removing .close p sock) (T.closeFD sock) (.removing .delete p sock)
  | removeDelete (p sock) : Work T (.removing .delete p sock) (T.setCore p none) (.removing .erase p sock)
  | removeErase (p sock) :
      Work T (.removing .erase p sock) {T with find := Function.update T.find sock none} .free

/-- The steps of a thread inside a public function. -/
inductive Call (T : Table) (exited : Bool) : Task → Table → Task → Prop
  | rest (task) : Call T exited task T task
  | fail : Call T exited .connecting T .other
  | connect (kind : T.kind ≠ .tcpServer) : Call T exited .other T .connecting
  | openFD (sock) (unused : T.isOpen sock = false) : Call T exited .connecting (T.openFD sock) .connecting
  | closeFD (sock) : Call T exited .connecting (T.closeFD sock) .other
  | prepare (sock valid notify) :
      Call T exited .connecting (T.alloc (invalidSocket,valid,notify)) (.counting sock T.nextPtr notify)
  | present (sock p notify) (found : (T.find sock).isSome) : Call T exited (.counting sock p notify) T (afterAdd notify sock p)
  | absent (sock p notify) (missing : T.find sock = none) :
      Call T exited (.counting sock p notify) T (.inserting sock p notify)
  | insert (sock p notify find) (inserts : find = T.find ∨ T.find sock = none ∧ find = Function.update T.find sock (some p)) :
      Call T exited (.inserting sock p notify)
        {T.setCore p ((T.core p).map (fun core => (sock,true,core.2.2))) with find := find} (.adding sock p notify)
  | addFD (sock p notify registered)
      (registers : registered = T.registered ∨
        T.isOpen sock = true ∧ registered = Function.update T.registered sock (some p)) :
      Call T exited (.adding sock p notify) {T with registered := registered} (afterAdd notify sock p)
  | announce (sock p) : Call T exited (.announcing sock p) (T.record p sock .opened) .other
  | closeListenSocket : Call T exited .other (T.closeFD T.listenSocket) .other
  | release (core registered) (finished : exited = true)
      (fewer : ∀ p, core p = T.core p ∨ core p = none ∧ ∃ sock, T.find sock = some p)
      (unregistered : ∀ fd p, registered fd = some p → T.registered fd = some p) :
      Call T exited .other {T with find := fun _ => none, core := core, registered := registered} .other
  | closeFds (T') (finished : exited = true) (closes : T.Closes T') : Call T exited .other T' .other

end Table

/-- The table with the threads at work on it; `pending` are the objects whose events
of the batch are still to be dispatched. -/
structure View where
  table : Table
  role : Role
  pending : List Ptr
  exited : Bool
  tasks : List Task

inductive View.Step : View → View → Prop
  | stutter (view) : Step view view
  | deliver (T pending tasks) (told : ∀ p ∈ pending, ∃ fd, T.registered fd = some p) :
      Step ⟨T,.free,[],false,tasks⟩ ⟨T,.free,pending,false,tasks⟩
  | event (T p pending tasks) : Step ⟨T,.free,p::pending,false,tasks⟩ ⟨T,.dispatching p,pending,false,tasks⟩
  | command (T fd p pending tasks) (found : T.find fd = some p) :
      Step ⟨T,.free,pending,false,tasks⟩ ⟨T,.dispatching p,pending,false,tasks⟩
  | exit (T tasks) : Step ⟨T,.free,[],false,tasks⟩ ⟨T,.free,[],true,tasks⟩
  | work (T role pending tasks T' role') (work : Table.Work T role T' role') :
      Step ⟨T,role,pending,false,tasks⟩ ⟨T',role',pending,false,tasks⟩
  | call (T role pending exited tasks t task T' task') (found : tasks[t]? = some task)
      (call : Table.Call T exited task T' task') :
      Step ⟨T,role,pending,exited,tasks⟩ ⟨T',role,pending,exited,tasks.set t task'⟩

end LightServer
