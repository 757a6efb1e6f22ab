import LightServer.Control

/-! The fds of the process: which steps open and close them, and the log of what was closed. -/
namespace LightServer

namespace Obs

def closing : Obs → Option FD
  | .closed fd => some fd
  | _ => none

end Obs

namespace Host

variable {h h' next : Host}

/-- The fds that have been closed, in their order. -/
def closings (h : Host) : List FD := h.log.filterMap Obs.closing

/-- The fds that the manager owns. -/
def managed (h : Host) : FD × FD × FD × FD := (h.epollFd,h.exitEvtFd,h.cmdEvtFd,h.timerEvtFd)

/-- An fd is opened only while the listening socket is open, and logged when it is closed. -/
structure KeepsFds (h h' : Host) : Prop where
  listenSocket : h'.listenSocket = h.listenSocket
  managed : h'.managed = h.managed
  opened : ∀ fd, h'.isOpen fd = true → h.isOpen fd = true ∨ h.isOpen h.listenSocket = true
  closed : ∃ since, h'.closings = h.closings ++ since ∧ ∀ fd, h.isOpen fd = true → h'.isOpen fd = true ∨ fd ∈ since

namespace KeepsFds

theorem of_same (listenSocket : h'.listenSocket = h.listenSocket) (managed : h'.managed = h.managed)
    (isOpen : h'.isOpen = h.isOpen)
    (closings : h'.closings = h.closings) : KeepsFds h h' :=
  ⟨listenSocket,managed,fun fd now => .inl (isOpen ▸ now),[],by simp [closings],fun fd now => .inl (isOpen ▸ now)⟩

theorem refl (h : Host) : KeepsFds h h := of_same rfl rfl rfl rfl

theorem trans (first : KeepsFds h h') (second : KeepsFds h' next) : KeepsFds h next := by
  refine ⟨second.listenSocket.trans first.listenSocket,second.managed.trans first.managed,fun fd now => ?_,?_⟩
  · rcases second.opened fd now with before | listening
    · exact first.opened fd before
    · exact .inr ((first.opened _ listening).elim (fun now => first.listenSocket ▸ now) id)
  · obtain ⟨early,closings,closed⟩ := first.closed
    obtain ⟨late,closings',closed'⟩ := second.closed
    refine ⟨early++late,by rw [closings',closings,List.append_assoc],fun fd now => ?_⟩
    rcases closed fd now with still | gone
    · exact (closed' fd still).imp_right (List.mem_append_right early)
    · exact .inr (List.mem_append_left late gone)

theorem listening (keeps : KeepsFds h h') (closed : h.isOpen h.listenSocket = false) : h'.isOpen h'.listenSocket = false := by
  apply (Bool.not_eq_true _).mp
  intro now
  rw [keeps.listenSocket] at now
  exact absurd ((keeps.opened _ now).elim id id) (by simp [closed])

theorem of_calm (calm : Calm h h') : KeepsFds h h' := by
  refine of_same calm.listenSocket ?_ calm.isOpen (calm.calm_log (fun _ _ => rfl))
  simp only [Host.managed,calm.epollFd,calm.exitEvtFd,calm.cmdEvtFd,calm.timerEvtFd]

theorem observe {obs : Obs} (other : obs.closing = none) (h : Host) : KeepsFds h (h.observe obs) :=
  of_same rfl rfl rfl (by simp [closings,Host.observe,other])

theorem modify (p : Ptr) (change : SocketObject → SocketObject) (h : Host) :
    KeepsFds h (h.modify p change) := of_same rfl rfl rfl rfl

theorem deleteFD (fd : FD) (h : Host) : KeepsFds h (h.deleteFD fd) := of_same rfl rfl rfl rfl

theorem deleteObject (p : Ptr) (h : Host) : KeepsFds h (h.deleteObject p) :=
  of_same rfl rfl rfl (by simp [closings,Host.deleteObject,Obs.closing])

theorem closeFD (fd : FD) (h : Host) : KeepsFds h (h.closeFD fd) := by
  unfold Host.closeFD
  split
  · refine ⟨rfl,rfl,fun other now => ?_,[fd],by simp [closings,Obs.closing],fun other now => ?_⟩ <;>
      by_cases same : other = fd <;> simp_all
  · exact refl h

theorem openFD (fd : FD) (listening : h.isOpen h.listenSocket = true) : KeepsFds h (h.openFD fd) := by
  refine ⟨rfl,rfl,fun _ _ => .inr listening,[],by simp [closings,Host.openFD],fun other now => .inl ?_⟩
  by_cases same : other = fd <;> simp [Host.openFD,same,now]

theorem addFD (fd : FD) (pv : PVOID) (refused : Bool) (h : Host) : KeepsFds h (h.addFD fd pv refused).2 := by
  unfold Host.addFD
  split <;> exact of_same rfl rfl rfl rfl

theorem prepareObject (raw : SocketObject) (addr : Option Sockaddr) (connected : Option UInt32) (h : Host) :
    KeepsFds h (h.prepareObject raw addr connected).2 := by
  cases addr <;> cases connected <;> exact of_same rfl rfl rfl rfl

theorem insertSocketObject (sock : SOCKET) (p : Ptr) (h : Host) : KeepsFds h (h.insertSocketObject sock p) :=
  of_same rfl rfl rfl rfl

theorem addTcpSocket (sock : SOCKET) (addr : Sockaddr) (raw : SocketObject) (now : UInt32) (refused : Bool) (h : Host) :
    KeepsFds h (h.addTcpSocket sock addr raw now refused).2.2 :=
  h.addTcpSocket_rule sock addr raw now refused (refl h) (prepareObject raw (some addr) (some now) h)
    (fun host p kept => kept.trans (insertSocketObject sock p host))
      (fun host p kept => kept.trans (addFD sock (.object p) refused host))

theorem releaseSocketObjects (h : Host) : KeepsFds h h.releaseSocketObjects := by
  obtain ⟨host,kept,same⟩ := h.releaseSocketObjects_rule (P := KeepsFds h) (refl h)
    (fun host entry _ kept => kept.trans ((deleteFD entry.1 host).trans (deleteObject entry.2 _)))
  exact same ▸ kept.trans (of_same rfl rfl rfl rfl)

theorem startAccept (refused : Bool) (h : Host) : KeepsFds h (Sys.startAccept refused h) := by
  unfold Sys.startAccept
  dsimp only
  split
  · exact (addFD h.listenSocket .listenSocket refused h).trans (of_same rfl rfl rfl rfl)
  · exact refl h

end KeepsFds

theorem isOpen_closeFD (fd : FD) (h : Host) : (h.closeFD fd).isOpen = Function.update h.isOpen fd false := by
  unfold closeFD
  split
  · rfl
  · rename_i closed
    rw [← (Bool.not_eq_true _).mp closed,Function.update_eq_self]

@[simp] theorem sockObjectMap_closeFD (fd : FD) (h : Host) : (h.closeFD fd).sockObjectMap = h.sockObjectMap := by
  unfold closeFD
  split <;> rfl

@[simp] theorem sockObjectMap_closeManagerFds (h : Host) : h.closeManagerFds.sockObjectMap = h.sockObjectMap :=
  h.closeManagerFds_rule (P := fun host => host.sockObjectMap = h.sockObjectMap) rfl (fun _ _ => id)
    (fun host fd kept => (host.sockObjectMap_closeFD fd).trans kept) (fun _ => id)

/-- The end of `Stop` closes the fds of the manager before it forgets them. -/
theorem closeManagerFds_keeps (h : Host) :
    ∃ closed, h.closeManagerFds = closed.reset ∧ KeepsFds h closed ∧
      ∀ fd, h.isOpen fd = false ∨ fd ∈ [h.epollFd,h.exitEvtFd,h.cmdEvtFd,h.timerEvtFd] ∧ fd ≠ invalidFd →
      closed.isOpen fd = false := by
  have release (fd : FD) (host : Host) : KeepsFds host (if fd != invalidFd then (host.deleteFD fd).closeFD fd else host) ∧
      ∀ other, host.isOpen other = false ∨ other = fd ∧ fd ≠ invalidFd →
        (if fd != invalidFd then (host.deleteFD fd).closeFD fd else host).isOpen other = false := by
    split
    · refine ⟨(KeepsFds.deleteFD fd host).trans (.closeFD fd _),fun other closed => ?_⟩
      rw [isOpen_closeFD]
      by_cases same : other = fd <;> simp_all [Host.deleteFD]
    · exact ⟨.refl host,fun other closed => closed.elim id (fun same => by simp_all)⟩
  have epoll (host : Host) : KeepsFds host (if h.epollFd != invalidFd then host.closeFD h.epollFd else host) ∧
      ∀ other, host.isOpen other = false ∨ other = h.epollFd ∧ h.epollFd ≠ invalidFd →
        (if h.epollFd != invalidFd then host.closeFD h.epollFd else host).isOpen other = false := by
    split
    · refine ⟨.closeFD h.epollFd host,fun other closed => ?_⟩
      rw [isOpen_closeFD]
      by_cases same : other = h.epollFd <;> simp_all
    · exact ⟨.refl host,fun other closed => closed.elim id (fun same => by simp_all)⟩
  obtain ⟨cmd,cmd_closed⟩ := release h.cmdEvtFd h
  obtain ⟨exit,exit_closed⟩ := release h.exitEvtFd _
  obtain ⟨timer,timer_closed⟩ := release h.timerEvtFd _
  obtain ⟨last,epoll_closed⟩ := epoll _
  refine ⟨_,rfl,((cmd.trans exit).trans timer).trans last,fun fd closed => ?_⟩
  rcases closed with before | ⟨member,valid⟩
  · exact epoll_closed fd (.inl (timer_closed fd (.inl (exit_closed fd (.inl (cmd_closed fd (.inl before)))))))
  · simp only [List.mem_cons,List.not_mem_nil,or_false] at member
    rcases member with rfl | rfl | rfl | rfl
    · exact epoll_closed _ (.inr ⟨rfl,valid⟩)
    · exact epoll_closed _ (.inl (timer_closed _ (.inl (exit_closed _ (.inr ⟨rfl,valid⟩)))))
    · exact epoll_closed _ (.inl (timer_closed _ (.inl (exit_closed _ (.inl (cmd_closed _ (.inr ⟨rfl,valid⟩)))))))
    · exact epoll_closed _ (.inl (timer_closed _ (.inr ⟨rfl,valid⟩)))

end Host

namespace Sys

theorem Move.fds {h h' : Host} {w w' : Worker} {act : Act} (move : Move h w act h' w') : h.KeepsFds h' := by
  cases move with
  | disconnected count b cmd queue p object front left kind found live valid =>
    exact (Host.KeepsFds.modify p SocketObject.setInvalid h).trans (.observe rfl _)
  | closeAccepted sock ctx => exact .closeFD sock h
  | connected p sock ctx => exact .observe rfl h
  | removeClose p sock count b => exact .closeFD sock h
  | removeDelete p sock count b => exact .deleteObject p h
  | timer exp now b => exact .of_calm (Host.onTimer_calm exp now h)
  | clientRefused p events ctx soError now kind refused =>
    exact .of_calm (Host.onBeforeProcessIo_refused refused)
  | clientIo p events ctx soError now kind passed =>
    obtain ⟨object,_,_,⟨_,result⟩ | ⟨_,result⟩⟩ := Host.onBeforeProcessIo_accepted passed
    · rw [result]
      exact .refl h
    · rw [result]
      exact (Host.KeepsFds.modify p (SocketObject.setConnected now.toNat) h).trans (.observe rfl _)
  | accepted sock addr ctx conn rest listening waiting nonneg unused =>
    have taken : h.KeepsFds {h with backlog := rest} := .of_same rfl rfl rfl rfl
    exact taken.trans (.openFD sock listening)
  | added sock addr ctx raw now refused ok => exact .addTcpSocket sock addr raw now refused h
  | notAdded sock addr ctx raw now refused failed => exact .addTcpSocket sock addr raw now refused h
  | readStarted p events ctx now sock next started => exact .of_calm (Host.startReceive_calm started).1
  | readOn p sock events ctx rc addr timeMs fits again =>
    obtain ⟨mid,buf,from_addr,calm,result⟩ := Host.handleReceive_again again
    rw [result]
    exact (Host.KeepsFds.of_calm calm).trans (.observe rfl mid)
  | readDone p sock events ctx rc addr timeMs rs fits done => exact .of_calm (Host.handleReceive_done done)
  | written p ctx packet count front left fits =>
    obtain ⟨addr,sent⟩ := h.handleSend_ok p packet count
    rw [sent]
    exact (Host.KeepsFds.modify p (SocketObject.reduceFront count) h).trans (.observe rfl _)
  | _ => exact .of_same rfl rfl rfl rfl

/-- A thread inside a public function opens no fd unless it is connecting; the end of `Stop` forgets those of the manager. -/
theorem CallStep.fds {h h' : Host} {w : Worker} {c c' : Caller} {reply : Reply} (call : CallStep h w c reply h' c')
    (connecting : ∀ op addr, c ≠ .socket op addr) :
    h.KeepsFds h' ∨ c = .stop .closeFds ∧ c' = .idle ∧ h' = h.closeManagerFds.observe (.stopped true) := by
  cases call with
  | evtWrite next =>
    left
    unfold Host.writeCmdEvt
    split <;> exact .of_same rfl rfl rfl rfl
  | socket op addr sock nonneg unused => exact absurd rfl (connecting op addr)
  | connected op addr sock raw now from_addr => exact .inl (.prepareObject raw from_addr (some now) h)
  | inProgress addr sock raw => exact .inl (.prepareObject raw (some addr) none h)
  | insert sock p notify => exact .inl (.insertSocketObject sock p h)
  | addFD sock p notify reply refused => exact .inl (.addFD sock _ refused h)
  | onConnect sock p => exact .inl (.observe rfl h)
  | closeSock sock => exact .inl (.closeFD sock h)
  | closeListenSocket => exact .inl (.closeFD h.listenSocket h)
  | release => exact .inl (.releaseSocketObjects h)
  | closeFds => exact .inr ⟨rfl,rfl,rfl⟩
  | _ => exact .inl (.of_same rfl rfl rfl rfl)

end Sys

end LightServer
