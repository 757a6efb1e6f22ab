import LightServer.Machine

/-! The operations that add a connection, each from its call to its return and for every outcome of
the system calls it makes. What the connecting calls are answered by `fcntl` and
`setsockopt(SO_RCVTIMEO)` is not looked at. -/
namespace LightServer

namespace Host

/-- The end of a connecting call: an object for the socket, and `OnConnect` where it is connected. -/
def enter (sock : SOCKET) (addr : Option Sockaddr) (connected : Option UInt32) (raw : SocketObject) (refused : Bool)
    (h : Host) : Host :=
  let made := h.prepareObject raw addr connected
  let added := (made.2.addSocketObject sock made.1 refused).2
  if connected.isSome then added.observe (.onConnect made.1 sock) else added

def connectToRemote (addr : Sockaddr) (socket : Except Errno FD) (connect : Except Errno Unit) (raw : SocketObject)
    (now : UInt32) (refused : Bool) (h : Host) : Int × Host :=
  match socket with
  | .error _ => (-1,h)
  | .ok sock =>
    match connect with
    | .error _ => (-1,(h.openFD sock).closeFD sock)
    | .ok _ => (sock,(h.openFD sock).enter sock (some addr) (some now) raw refused)

def asynchConnectTo (addr : Sockaddr) (socket : Except Errno FD) (connect : Except Errno Unit) (raw : SocketObject)
    (now : UInt32) (refused : Bool) (h : Host) : Int × Host :=
  match socket with
  | .error _ => (invalidSocket,h)
  | .ok sock =>
    match connect with
    | .error code =>
      if code = einprogress then (sock,(h.openFD sock).enter sock (some addr) none raw refused) else (sock,h.openFD sock)
    | .ok _ => (sock,(h.openFD sock).enter sock (some addr) (some now) raw refused)

def addUdpSocket (socket : Except Errno FD) (setsockopt bind : Except Errno Unit) (raw : SocketObject) (now : UInt32)
    (refused : Bool) (h : Host) : Int × Host :=
  match socket with
  | .error _ => (-1,h)
  | .ok sock =>
    match setsockopt, bind with
    | .ok _, .ok _ => (sock,(h.openFD sock).enter sock none (some now) raw refused)
    | _, _ => (-1,(h.openFD sock).closeFD sock)

end Host

def TcpServer.handleAccept (events : UInt32) (accept : Except Errno (FD × Sockaddr)) (nonBlocking : Bool) (raw : SocketObject)
    (now : UInt32) (refused : Bool) (h : Host) : Bool × Host :=
  if has events (epollerr ||| epollhup) then (false,h)
  else
    match accept with
    | .error _ => (false,h)
    | .ok (sock,addr) =>
      let accepted := Host.openFD sock {h with backlog := h.backlog.tail}
      if nonBlocking then
        let added := accepted.addTcpSocket sock addr raw now refused
        if added.1 < 0 then (false,added.2.2.closeFD sock) else (true,added.2.2.observe (.onConnect added.2.1 sock))
      else (false,accepted)

/-- The adding operations with the outcomes of their system calls. -/
inductive Adding
  | handleAccept (events : UInt32) (accept : Except Errno (FD × Sockaddr)) (nonBlocking : Bool)
  | addUdpSocket (socket : Except Errno FD) (setsockopt bind : Except Errno Unit)
  | connectToRemote (addr : Sockaddr) (socket : Except Errno FD) (connect : Except Errno Unit)
  | asynchConnectTo (addr : Sockaddr) (socket : Except Errno FD) (connect : Except Errno Unit)

namespace Adding

/-- The socket that the operation reports as added, where it reports success. -/
def run (op : Adding) (raw : SocketObject) (now : UInt32) (refused : Bool) (h : Host) : Option SOCKET × Host :=
  let reported (result : Int × Host) := (if 0 ≤ result.1 then some result.1 else none,result.2)
  match op with
  | .handleAccept events accept nonBlocking =>
    let result := TcpServer.handleAccept events accept nonBlocking raw now refused h
    (if result.1 then accept.toOption.map Prod.fst else none,result.2)
  | .addUdpSocket socket setsockopt bind => reported (h.addUdpSocket socket setsockopt bind raw now refused)
  | .connectToRemote addr socket connect => reported (h.connectToRemote addr socket connect raw now refused)
  | .asynchConnectTo addr socket connect => reported (h.asynchConnectTo addr socket connect raw now refused)

/-- The socket that the operation is given by the kernel. -/
def obtained : Adding → Option FD
  | .handleAccept events accept _ => if has events (epollerr ||| epollhup) then none else accept.toOption.map Prod.fst
  | .addUdpSocket socket _ _ | .connectToRemote _ socket _ | .asynchConnectTo _ socket _ => socket.toOption

end Adding

namespace Host

/-- The kernel hands out an fd that is neither open nor registered. -/
def Unused (fd : FD) (h : Host) : Prop := 0 ≤ fd ∧ h.isOpen fd = false ∧ h.interest fd = none

/-- The socket is open, in the map with a valid object, and registered for that object. -/
def Serves (sock : SOCKET) (h : Host) : Prop :=
  h.isOpen sock = true ∧ ∃ p object, h.findSocketObject sock = some p ∧ h.heap p = some object ∧ object.fValid = true ∧
    h.interest sock = some (.object p)

/-- The map and the epoll set are as before, and the socket that was obtained is closed. -/
def Undone (obtained : Option FD) (h h' : Host) : Prop :=
  h'.sockObjectMap = h.sockObjectMap ∧ h'.interest = h.interest ∧ ∀ fd ∈ obtained, h'.isOpen fd = false

/-- `AddSocketObject` finds no entry for the socket, and its `epoll_ctl` succeeds. -/
def Registers (sock : SOCKET) (refused : Bool) (h : Host) : Prop :=
  sock ∉ h.sockObjectMap ∧ h.hasStart = true ∧ refused = false

end Host

namespace Adding

/-- What the operation reports is what it has done. -/
def AllOrNothing (op : Adding) (raw : SocketObject) (now : UInt32) (refused : Bool) (h : Host) : Prop :=
  match (op.run raw now refused h).1 with
  | some sock => (op.run raw now refused h).2.Serves sock
  | none => h.Undone op.obtained (op.run raw now refused h).2

/-- The steps after which the code goes on without looking, or returns without undoing, succeed. -/
def Clean (op : Adding) (refused : Bool) (h : Host) : Prop :=
  match op with
  | .handleAccept events (.ok (sock,_)) nonBlocking =>
    has events (epollerr ||| epollhup) = false → nonBlocking = true ∧ (sock ∈ h.sockObjectMap ∨ h.Registers sock refused)
  | .addUdpSocket (.ok sock) (.ok _) (.ok _) => h.Registers sock refused
  | .connectToRemote _ (.ok sock) (.ok _) => h.Registers sock refused
  | .asynchConnectTo _ (.ok sock) (.ok _) => h.Registers sock refused
  | .asynchConnectTo _ (.ok sock) (.error code) => code = einprogress ∧ h.Registers sock refused
  | _ => True

end Adding

namespace Host

variable {h : Host} {sock : SOCKET} {refused : Bool}

theorem prepareObject_frame (raw : SocketObject) (addr : Option Sockaddr) (connected : Option UInt32) (h : Host) :
    ∃ object, (h.prepareObject raw addr connected).2 =
      {h with heap := Function.update h.heap h.nextPtr (some object), nextPtr := h.nextPtr+1} ∧
        (h.prepareObject raw addr connected).1 = h.nextPtr := by
  cases addr <;> cases connected <;> simp [prepareObject,newSocketObject,modify,Function.update_idem] <;> exact ⟨_,rfl⟩

theorem addFD_refused (fd : FD) (pv : PVOID) (failed : ¬ (h.hasStart = true ∧ refused = false)) :
    (h.addFD fd pv refused).2 = h := by
  cases refused with
  | true => simp [addFD]
  | false =>
    have stopped : h.hasStart = false := by simpa using failed
    simp [addFD,stopped]

/-- A new object serves its socket exactly if it has been entered and registered. -/
theorem addSocketObject_serves {p : Ptr} {object : SocketObject} (live : h.heap p = some object) (opened : h.isOpen sock = true)
    (unregistered : h.interest sock = none) :
    (h.addSocketObject sock p refused).2.Serves sock ↔ h.Registers sock refused := by
  by_cases present : sock ∈ h.sockObjectMap
  · simp [addSocketObject,present,Registers,Serves,unregistered]
  · by_cases accepted : h.hasStart = true ∧ refused = false
    · have registered : (h.addSocketObject sock p refused).2 =
          {h.insertSocketObject sock p with interest := Function.update h.interest sock (some (.object p))} := by
        simp only [hasStart] at accepted
        simp [addSocketObject,present,addFD,insertSocketObject,hasStart,modify,accepted,opened,unregistered]
      rw [registered]
      refine ⟨fun _ => ⟨present,accepted⟩,fun _ => ⟨opened,p,(object.setSocketId sock).setValid,?_,?_,rfl,by simp⟩⟩
      · simp [findSocketObject,insertSocketObject,present]
      · simp [insertSocketObject,modify,live]
    · have refused : (h.addSocketObject sock p refused).2 = h.insertSocketObject sock p := by
        rw [addSocketObject,if_neg present]
        exact addFD_refused sock (.object p) (h := h.insertSocketObject sock p) accepted
      have missing : (h.insertSocketObject sock p).interest sock = none := unregistered
      simp [Serves,refused,missing,Registers,accepted]

theorem enter_serves (fresh : h.Unused sock) (raw : SocketObject) (addr : Option Sockaddr) (connected : Option UInt32) :
    ((h.openFD sock).enter sock addr connected raw refused).Serves sock ↔ h.Registers sock refused := by
  obtain ⟨object,made,ptr⟩ := prepareObject_frame raw addr connected (h.openFD sock)
  have added : ((h.openFD sock).enter sock addr connected raw refused).Serves sock ↔
      (((h.openFD sock).prepareObject raw addr connected).2.addSocketObject sock
        ((h.openFD sock).prepareObject raw addr connected).1 refused).2.Serves sock := by
    unfold enter
    split <;> exact Iff.rfl
  rw [added,made,ptr]
  have live := Function.update_self (h.openFD sock).nextPtr (some object) (h.openFD sock).heap
  exact addSocketObject_serves live (by simp [openFD]) fresh.2.2

/-- `AddTcpSocket` on a socket that has an entry makes an object, and no more. -/
theorem addTcpSocket_present (refused : Bool) (valid : sock ≠ invalidSocket) (present : sock ∈ h.sockObjectMap) (addr : Sockaddr)
    (raw : SocketObject) (now : UInt32) : (h.addTcpSocket sock addr raw now refused).1 = -1 ∧
      ∃ heap nextPtr, (h.addTcpSocket sock addr raw now refused).2.2 = {h with heap := heap, nextPtr := nextPtr} := by
  obtain ⟨object,made,ptr⟩ := prepareObject_frame raw (some addr) (some now) h
  simp only [addTcpSocket,if_neg valid,made,ptr,addSocketObject,if_pos present]
  exact ⟨rfl,_,_,rfl⟩

theorem addTcpSocket_absent (refused : Bool) (valid : sock ≠ invalidSocket) (absent : sock ∉ h.sockObjectMap)
    (opened : h.isOpen sock = true) (unregistered : h.interest sock = none) (addr : Sockaddr) (raw : SocketObject) (now : UInt32) :
    (h.addTcpSocket sock addr raw now refused).1 = 0 ∧
      ((h.addTcpSocket sock addr raw now refused).2.2.Serves sock ↔ h.Registers sock refused) := by
  obtain ⟨object,made,ptr⟩ := prepareObject_frame raw (some addr) (some now) h
  simp only [addTcpSocket,if_neg valid,made,ptr]
  refine ⟨by simp [addSocketObject,absent],?_⟩
  exact addSocketObject_serves (Function.update_self h.nextPtr (some object) h.heap) opened unregistered

theorem undone_closed (fresh : h.Unused sock) : h.Undone (some sock) ((h.openFD sock).closeFD sock) := by
  refine ⟨by simp [closeFD,openFD],?_,by simp [closeFD,openFD]⟩
  simp only [closeFD,openFD,Function.update_self,if_true]
  exact Function.update_eq_self_iff.mpr fresh.2.2.symm

theorem undone_nothing : h.Undone none h := ⟨rfl,rfl,by simp⟩

end Host

namespace Adding

open Host

variable {h : Host} {refused : Bool}

/-- `HandleAccept` with a connection that `accept` has handed out. -/
private theorem accepted_iff {sock : SOCKET} (addr : Sockaddr) (events : UInt32) (nonBlocking : Bool) (raw : SocketObject)
    (now : UInt32) (fine : has events (epollerr ||| epollhup) = false) (fresh : h.Unused sock) :
    (handleAccept events (.ok (sock,addr)) nonBlocking).AllOrNothing raw now refused h ↔
      nonBlocking = true ∧ (sock ∈ h.sockObjectMap ∨ h.Registers sock refused) := by
  cases nonBlocking with
  | false => simp [AllOrNothing,run,TcpServer.handleAccept,fine,Undone,obtained,Except.toOption,openFD]
  | true =>
    have valid : sock ≠ invalidSocket := by
      rintro rfl
      exact absurd fresh.1 (by decide)
    by_cases present : sock ∈ h.sockObjectMap
    · obtain ⟨failed,heap,nextPtr,kept⟩ :=
        addTcpSocket_present (h := Host.openFD sock {h with backlog := h.backlog.tail}) refused valid present addr raw now
      have result : (handleAccept events (.ok (sock,addr)) true).run raw now refused h =
          (none,({Host.openFD sock {h with backlog := h.backlog.tail} with heap := heap, nextPtr := nextPtr}).closeFD sock) := by
        simp [run,TcpServer.handleAccept,fine,failed,kept]
      have given : (handleAccept events (.ok (sock,addr)) true).obtained = some sock := by simp [obtained,fine,Except.toOption]
      rw [AllOrNothing,result,given]
      refine iff_of_true ?_ ⟨rfl,.inl present⟩
      obtain ⟨map,interest,closed⟩ := undone_closed fresh
      simp only [closeFD,openFD,Function.update_self,if_true] at interest
      exact ⟨by simp [closeFD,openFD],by simpa [closeFD,openFD] using interest,by simp [closeFD,openFD]⟩
    · obtain ⟨ok,serves⟩ := addTcpSocket_absent (h := Host.openFD sock {h with backlog := h.backlog.tail}) refused valid
        present (by simp [openFD]) fresh.2.2 addr raw now
      have result : (handleAccept events (.ok (sock,addr)) true).run raw now refused h = (some sock,
          ((Host.openFD sock {h with backlog := h.backlog.tail}).addTcpSocket sock addr raw now refused).2.2.observe (.onConnect
            ((Host.openFD sock {h with backlog := h.backlog.tail}).addTcpSocket sock addr raw now refused).2.1 sock)) := by
        simp [run,TcpServer.handleAccept,fine,ok,Except.toOption]
      rw [AllOrNothing,result]
      refine serves.trans ?_
      simp only [present,false_or,true_and]
      exact Iff.rfl

private theorem handleAccept_iff (events : UInt32) (accept : Except Errno (FD × Sockaddr)) (nonBlocking : Bool)
    (raw : SocketObject) (now : UInt32) (fresh : ∀ fd ∈ (handleAccept events accept nonBlocking).obtained, h.Unused fd) :
    (handleAccept events accept nonBlocking).AllOrNothing raw now refused h ↔
      (handleAccept events accept nonBlocking).Clean refused h := by
  cases broken : has events (epollerr ||| epollhup) with
  | true =>
    have result : (handleAccept events accept nonBlocking).run raw now refused h = (none,h) := by
      simp [run,TcpServer.handleAccept,broken]
    have nothing : (handleAccept events accept nonBlocking).obtained = none := by simp [obtained,broken]
    rw [AllOrNothing,result,nothing]
    refine iff_of_true undone_nothing ?_
    cases accept <;> simp [Clean,broken]
  | false =>
    cases accept with
    | error code =>
      have result : (handleAccept events (.error code) nonBlocking).run raw now refused h = (none,h) := by
        simp [run,TcpServer.handleAccept,broken]
      have nothing : (handleAccept events (.error code) nonBlocking).obtained = none := by
        simp [obtained,broken,Except.toOption]
      rw [AllOrNothing,result,nothing]
      exact iff_of_true undone_nothing trivial
    | ok pair =>
      obtain ⟨sock,addr⟩ := pair
      rw [accepted_iff addr events nonBlocking raw now broken (fresh sock (by simp [obtained,broken,Except.toOption]))]
      simp [Clean,broken]

/-- Where the operation ends by entering the socket, it depends on that alone. -/
private theorem entered_iff {op : Adding} {sock : SOCKET} {raw : SocketObject} {now : UInt32} (addr : Option Sockaddr)
    (connected : Option UInt32) (unused : h.Unused sock) (result : op.run raw now refused h =
      (if 0 ≤ sock then some sock else none,(h.openFD sock).enter sock addr connected raw refused)) :
    op.AllOrNothing raw now refused h ↔ h.Registers sock refused := by
  rw [if_pos unused.1] at result
  rw [AllOrNothing,result]
  exact enter_serves unused raw addr connected

private theorem addUdpSocket_iff (socket : Except Errno FD) (setsockopt bind : Except Errno Unit) (raw : SocketObject)
    (now : UInt32) (fresh : ∀ fd ∈ socket.toOption, h.Unused fd) :
    (addUdpSocket socket setsockopt bind).AllOrNothing raw now refused h ↔
      (addUdpSocket socket setsockopt bind).Clean refused h := by
  cases socket with
  | error code => exact iff_of_true undone_nothing trivial
  | ok sock =>
    have unused : h.Unused sock := fresh sock rfl
    cases setsockopt with
    | error code => exact iff_of_true (undone_closed unused) trivial
    | ok _ =>
      cases bind with
      | error code => exact iff_of_true (undone_closed unused) trivial
      | ok _ => exact entered_iff none (some now) unused rfl

private theorem connectToRemote_iff (addr : Sockaddr) (socket : Except Errno FD) (connect : Except Errno Unit)
    (raw : SocketObject) (now : UInt32) (fresh : ∀ fd ∈ socket.toOption, h.Unused fd) :
    (connectToRemote addr socket connect).AllOrNothing raw now refused h ↔
      (connectToRemote addr socket connect).Clean refused h := by
  cases socket with
  | error code => exact iff_of_true undone_nothing trivial
  | ok sock =>
    have unused : h.Unused sock := fresh sock rfl
    cases connect with
    | error code => exact iff_of_true (undone_closed unused) trivial
    | ok _ => exact entered_iff (some addr) (some now) unused rfl

private theorem asynchConnectTo_iff (addr : Sockaddr) (socket : Except Errno FD) (connect : Except Errno Unit)
    (raw : SocketObject) (now : UInt32) (fresh : ∀ fd ∈ socket.toOption, h.Unused fd) :
    (asynchConnectTo addr socket connect).AllOrNothing raw now refused h ↔
      (asynchConnectTo addr socket connect).Clean refused h := by
  cases socket with
  | error code => exact iff_of_true undone_nothing trivial
  | ok sock =>
    have unused : h.Unused sock := fresh sock rfl
    cases connect with
    | ok _ => exact entered_iff (some addr) (some now) unused rfl
    | error code =>
      by_cases going : code = einprogress
      · have result : (asynchConnectTo addr (.ok sock) (.error code)).run raw now refused h =
            (if 0 ≤ sock then some sock else none,(h.openFD sock).enter sock (some addr) none raw refused) := by
          simp [run,Host.asynchConnectTo,going]
        rw [entered_iff (some addr) none unused result]
        exact (and_iff_right going).symm
      · have result : (asynchConnectTo addr (.ok sock) (.error code)).run raw now refused h = (some sock,h.openFD sock) := by
          simp [run,Host.asynchConnectTo,going,unused.1]
        rw [AllOrNothing,result]
        refine iff_of_false ?_ (fun clean => going clean.1)
        simp [Serves,openFD,unused.2.2]

/-- An adding operation is all or nothing exactly if the steps whose failure it overlooks succeed. -/
theorem all_or_nothing_iff (op : Adding) (raw : SocketObject) (now : UInt32) (fresh : ∀ fd ∈ op.obtained, h.Unused fd) :
    op.AllOrNothing raw now refused h ↔ op.Clean refused h := by
  cases op with
  | handleAccept events accept nonBlocking => exact handleAccept_iff events accept nonBlocking raw now fresh
  | addUdpSocket socket setsockopt bind => exact addUdpSocket_iff socket setsockopt bind raw now fresh
  | connectToRemote addr socket connect => exact connectToRemote_iff addr socket connect raw now fresh
  | asynchConnectTo addr socket connect => exact asynchConnectTo_iff addr socket connect raw now fresh

theorem plain_unused (kind : ServerKind) : (Config.plain kind 1).started.host.Unused 7 := by
  cases kind <;> exact ⟨by decide,by decide,by decide⟩

theorem connection_added :
    (connectToRemote [] (.ok 7) (.ok ())).AllOrNothing .blank 0 false (Config.plain .tcpClient 1).started.host := by
  refine (all_or_nothing_iff _ .blank 0 (fun fd given => ?_)).mpr ⟨by decide,by decide,rfl⟩
  exact (Option.some.inj given) ▸ plain_unused .tcpClient

/-- A failure of `fcntl`, of `epoll_ctl` or of `connect` that each operation overlooks. -/
theorem additions_half_done :
    ¬ (handleAccept epollin (.ok (7,[])) false).AllOrNothing .blank 0 false (Config.plain .tcpServer 1).started.host ∧
    ¬ (addUdpSocket (.ok 7) (.ok ()) (.ok ())).AllOrNothing .blank 0 true (Config.plain .udpServer 1).started.host ∧
    ¬ (connectToRemote [] (.ok 7) (.ok ())).AllOrNothing .blank 0 true (Config.plain .tcpClient 1).started.host ∧
    ¬ (asynchConnectTo [] (.ok 7) (.error 111)).AllOrNothing .blank 0 false (Config.plain .tcpClient 1).started.host := by
  have refused (kind : ServerKind) (addr : Option Sockaddr) :
      ¬ (((Config.plain kind 1).started.host.openFD 7).enter 7 addr (some 0) .blank true).Serves 7 := by
    rw [enter_serves (plain_unused kind)]
    simp [Registers]
  refine ⟨?_,refused .udpServer none,refused .tcpClient (some []),?_⟩
  · rintro ⟨_,_,closed⟩
    exact absurd (closed 7 rfl) (by decide)
  · rintro ⟨_,p,_,_,_,_,registered⟩
    exact absurd registered (by simp [run,Host.asynchConnectTo,einprogress,openFD,(plain_unused .tcpClient).2.2])

end Adding

namespace Sys

/-! The operations are what the steps of the process come to where no other thread acts. -/

/-- The thread takes the host from `h` to `h'` by steps of its own. -/
def Calls (t : Nat) (h : Host) (c : Caller) (h' : Host) (c' : Caller) : Prop :=
  ∃ replies : List Reply, ∀ s : Sys, s.host = h → s.callers[t]? = some c → s.mayAct t = true →
    Transition.exec step s (replies.map (.caller t)) = some ({s with host := h'}.setCaller t c')

variable {t : Nat} {h h' next : Host} {c c' later : Caller}

theorem Calls.single (reply : Reply) (taken : ∀ s : Sys, s.host = h →
    s.callerStep t c reply = some ({s with host := h'}.setCaller t c')) : Calls t h c h' c' := by
  refine ⟨[reply],fun s host found may => ?_⟩
  simp [step,found,may,taken s host]

theorem Calls.trans (first : Calls t h c h' c') (second : Calls t h' c' next later) : Calls t h c next later := by
  obtain ⟨early,first⟩ := first
  obtain ⟨late,second⟩ := second
  refine ⟨early++late,fun s host found may => ?_⟩
  have inside := (List.getElem?_eq_some_iff.mp found).1
  have between := second ({s with host := h'}.setCaller t c') rfl (by simp [setCaller,inside]) may
  rw [List.map_append,Transition.exec_append,first s host found may]
  simpa [setCaller] using between

theorem calls_told (sock : SOCKET) (p : Ptr) (notify : Bool) (h : Host) :
    Calls t h (afterAdd notify sock p) (if notify then h.observe (.onConnect p sock) else h) .idle := by
  cases notify with
  | true => exact .single .done (fun s host => by rw [← host]; rfl)
  | false =>
    refine ⟨[],fun s host found _ => ?_⟩
    have same : s.setCaller t .idle = s := by
      obtain ⟨inside,at_t⟩ := List.getElem?_eq_some_iff.mp found
      change s.callers[t] = .idle at at_t
      simp [setCaller,← at_t]
    rw [← host]
    exact congrArg some same.symm

theorem calls_added (sock : SOCKET) (p : Ptr) (notify refused : Bool) (h : Host) :
    Calls t h (.count sock p notify) (if notify then (h.addSocketObject sock p refused).2.observe (.onConnect p sock)
      else (h.addSocketObject sock p refused).2) .idle := by
  by_cases present : sock ∈ h.sockObjectMap
  · have counted : Calls t h (.count sock p notify) h (afterAdd notify sock p) :=
      .single .done (fun s host => by subst host; simp [callerStep,present])
    simpa [Host.addSocketObject,present] using counted.trans (calls_told sock p notify h)
  · have counted : Calls t h (.count sock p notify) h (.insert sock p notify) :=
      .single .done (fun s host => by subst host; simp [callerStep,present])
    have inserted : Calls t h (.insert sock p notify) (h.insertSocketObject sock p) (.addFD sock p notify) :=
      .single .done (fun s host => by rw [← host]; rfl)
    have added : Calls t (h.insertSocketObject sock p) (.addFD sock p notify)
        ((h.insertSocketObject sock p).addFD sock (.object p) refused).2 (afterAdd notify sock p) := by
      cases refused with
      | true => exact .single (.failed 0) (fun s host => by rw [← host]; rfl)
      | false => exact .single .done (fun s host => by rw [← host]; rfl)
    simpa [Host.addSocketObject,present] using ((counted.trans inserted).trans added).trans (calls_told sock p notify _)

theorem calls_socket {op : ConnectOp} {addr : Sockaddr} {sock : SOCKET} (fresh : h.Unused sock)
    (rest : Calls t (h.openFD sock) (.connect op addr sock) h' .idle) : Calls t h (.socket op addr) h' .idle := by
  have opened : Calls t h (.socket op addr) (h.openFD sock) (.connect op addr sock) :=
    .single (.fd sock) (fun s host => by simp [callerStep,host,fresh.1,fresh.2.1])
  exact opened.trans rest

theorem calls_noSocket (op : ConnectOp) (addr : Sockaddr) (code : Errno) (h : Host) : Calls t h (.socket op addr) h .idle :=
  .single (.failed code) (fun s host => by rw [← host]; rfl)

theorem calls_refused {op : ConnectOp} (closes : op ≠ .asynchConnectTo) (addr : Sockaddr) (sock : SOCKET) (h : Host) :
    Calls t h (.connect op addr sock) (h.closeFD sock) .idle := by
  have refused : Calls t h (.connect op addr sock) h (.closeSock sock) := by
    cases op with
    | asynchConnectTo => exact absurd rfl closes
    | connectToRemote => exact .single (.failed 0) (fun s host => by rw [← host]; rfl)
    | addUdpSocket => exact .single (.failed 0) (fun s host => by rw [← host]; rfl)
  exact refused.trans (.single .done (fun s host => by rw [← host]; rfl))

theorem calls_entered {op : ConnectOp} {addr : Sockaddr} {sock : SOCKET} {from_addr : Option Sockaddr} {connected : Option UInt32}
    {raw : SocketObject} (refused : Bool) (reply : Reply)
    (taken : ∀ s : Sys, s.host = h → s.callerStep t (.connect op addr sock) reply =
      some ({s with host := (h.prepareObject raw from_addr connected).2}.setCaller t
        (.count sock (h.prepareObject raw from_addr connected).1 connected.isSome))) :
    Calls t h (.connect op addr sock) (h.enter sock from_addr connected raw refused) .idle := by
  have made : Calls t h (.connect op addr sock) (h.prepareObject raw from_addr connected).2
      (.count sock (h.prepareObject raw from_addr connected).1 connected.isSome) := .single reply taken
  exact made.trans (calls_added sock _ connected.isSome refused _)

theorem calls_connectToRemote (addr : Sockaddr) (socket : Except Errno FD) (connect : Except Errno Unit) (raw : SocketObject)
    (now : UInt32) (refused : Bool) (fresh : ∀ sock ∈ socket.toOption, h.Unused sock) :
    Calls t h (.socket .connectToRemote addr) (h.connectToRemote addr socket connect raw now refused).2 .idle := by
  cases socket with
  | error code => exact calls_noSocket .connectToRemote addr code h
  | ok sock =>
    apply calls_socket (fresh sock rfl)
    cases connect with
    | error code => exact calls_refused (by simp) addr sock _
    | ok _ =>
      change Calls t _ _ ((h.openFD sock).enter sock (some addr) (some now) raw refused) .idle
      exact calls_entered refused (.object raw now) (fun s host => by rw [← host]; rfl)

theorem calls_asynchConnectTo (addr : Sockaddr) (socket : Except Errno FD) (connect : Except Errno Unit) (raw : SocketObject)
    (now : UInt32) (refused : Bool) (fresh : ∀ sock ∈ socket.toOption, h.Unused sock) :
    Calls t h (.socket .asynchConnectTo addr) (h.asynchConnectTo addr socket connect raw now refused).2 .idle := by
  cases socket with
  | error code => exact calls_noSocket .asynchConnectTo addr code h
  | ok sock =>
    apply calls_socket (fresh sock rfl)
    cases connect with
    | ok _ =>
      change Calls t _ _ ((h.openFD sock).enter sock (some addr) (some now) raw refused) .idle
      exact calls_entered refused (.object raw now) (fun s host => by rw [← host]; rfl)
    | error code =>
      by_cases going : code = einprogress
      · have entered : Calls t (h.openFD sock) (.connect .asynchConnectTo addr sock)
            ((h.openFD sock).enter sock (some addr) none raw refused) .idle :=
          calls_entered refused (.inProgress raw) (fun s host => by rw [← host]; rfl)
        simpa [Host.asynchConnectTo,going] using entered
      · have left : Calls t (h.openFD sock) (.connect .asynchConnectTo addr sock) (h.openFD sock) .idle :=
          .single (.failed code) (fun s host => by simp [callerStep,connectStep,going,← host])
        simpa [Host.asynchConnectTo,going] using left

theorem calls_addUdpSocket (addr : Sockaddr) (socket : Except Errno FD) (setsockopt bind : Except Errno Unit) (raw : SocketObject)
    (now : UInt32) (refused : Bool) (fresh : ∀ sock ∈ socket.toOption, h.Unused sock) :
    Calls t h (.socket .addUdpSocket addr) (h.addUdpSocket socket setsockopt bind raw now refused).2 .idle := by
  cases socket with
  | error code => exact calls_noSocket .addUdpSocket addr code h
  | ok sock =>
    apply calls_socket (fresh sock rfl)
    cases setsockopt with
    | error code => exact calls_refused (by simp) addr sock _
    | ok _ =>
      cases bind with
      | error code => exact calls_refused (by simp) addr sock _
      | ok _ =>
        change Calls t _ _ ((h.openFD sock).enter sock none (some now) raw refused) .idle
        exact calls_entered refused (.object raw now) (fun s host => by rw [← host]; rfl)

/-- The worker runs `HandleAccept` when the listening socket is readable. -/
theorem exec_handleAccept {s : Sys} {events : UInt32} {ctx : Ctx} (kind : s.host.kind = .tcpServer)
    (called : s.worker = .beforeIo .listenSocket events ctx) (idle : s.listenerIdle = true)
    (accept : Except Errno (FD × Sockaddr)) (nonBlocking : Bool) (raw : SocketObject) (now : UInt32) (refused : Bool)
    (waiting : ∀ pair ∈ accept.toOption, s.host.isOpen s.host.listenSocket = true ∧ s.host.backlog ≠ [] ∧ s.host.Unused pair.1) :
    ∃ acts, Transition.exec step s acts =
      some (s.moveTo (TcpServer.handleAccept events accept nonBlocking raw now refused s.host).2 (resume ctx)) := by
  obtain ⟨h,w,callers,stopCalled⟩ := s
  obtain rfl : w = _ := called
  have free (host : Host) (worker : Worker) : listenerIdle ⟨host,worker,callers,stopCalled⟩ = true := idle
  have started : Transition.exec step ⟨h,.beforeIo .listenSocket events ctx,callers,stopCalled⟩ [.beforeIo (.ok 0) 0] =
      some ⟨h,if has events (epollerr ||| epollhup) then resume ctx else .accept ctx,callers,stopCalled⟩ := by
    simp only [Transition.exec_cons,Transition.exec_nil,step,free,if_true,workerAct,beforeIo,show h.kind = .tcpServer from kind]
    rfl
  cases broken : has events (epollerr ||| epollhup) with
  | true => exact ⟨_,started.trans (by simp [broken,TcpServer.handleAccept,moveTo])⟩
  | false =>
    simp only [broken,Bool.false_eq_true,if_false] at started
    cases accept with
    | error code =>
      refine ⟨[.beforeIo (.ok 0) 0] ++ [.accept (.error code)],?_⟩
      rw [Transition.exec_append,started]
      simp [step,free,workerAct,Sys.accept,TcpServer.handleAccept,broken,moveTo]
    | ok pair =>
      obtain ⟨sock,addr⟩ := pair
      obtain ⟨listening,queue,nonneg,unused,_⟩ := waiting (sock,addr) rfl
      have accepted : Transition.exec step ⟨h,.beforeIo .listenSocket events ctx,callers,stopCalled⟩
          ([.beforeIo (.ok 0) 0] ++ [.accept (.ok (sock,addr))]) =
            some ⟨Host.openFD sock {h with backlog := h.backlog.tail},.setNonBlocking sock addr ctx,callers,stopCalled⟩ := by
        rw [Transition.exec_append,started]
        simp_all [step,workerAct,Sys.accept,moveTo]
      cases nonBlocking with
      | false =>
        refine ⟨([.beforeIo (.ok 0) 0] ++ [.accept (.ok (sock,addr))]) ++ [.setNonBlocking false],?_⟩
        rw [Transition.exec_append,accepted]
        simp [step,free,workerAct,TcpServer.handleAccept,broken,moveTo]
      | true =>
        refine ⟨([.beforeIo (.ok 0) 0] ++ [.accept (.ok (sock,addr))]) ++
          [.setNonBlocking true,.addTcpSocket raw now refused,.worker],?_⟩
        rw [Transition.exec_append,accepted]
        by_cases failed : ((Host.openFD sock {h with backlog := h.backlog.tail}).addTcpSocket sock addr raw now refused).1 < 0
        · simp [step,free,workerAct,TcpServer.handleAccept,broken,moveTo,addTcpSocket,failed,workerStep]
        · simp [step,free,workerAct,TcpServer.handleAccept,broken,moveTo,addTcpSocket,failed,workerStep]

end Sys

end LightServer
