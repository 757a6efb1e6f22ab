import LightServer.FileDescriptors

/-! The fds that are open and those that are registered, in every state of the process. -/
namespace LightServer

namespace Host

variable {h h' : Host}

/-- No negative fd is open, and only open fds are registered. -/
structure Tidy (h : Host) : Prop where
  nonneg : ∀ fd, h.isOpen fd = true → 0 ≤ fd
  registered : ∀ fd, h.isOpen fd = false → h.interest fd = none

theorem Tidy.invalid (tidy : h.Tidy) : h.isOpen invalidFd = false := by
  apply (Bool.not_eq_true _).mp
  intro now
  exact absurd (tidy.nonneg _ now) (by decide)

/-- What a step may do to the open fds and their registrations. -/
structure KeepsTidy (h h' : Host) : Prop where
  opened : ∀ fd, h'.isOpen fd = true → h.isOpen fd = true ∨ 0 ≤ fd
  registered : ∀ fd, h'.isOpen fd = false → h'.interest fd = none ∨ h.isOpen fd = false ∧ h'.interest fd = h.interest fd

theorem KeepsTidy.tidy (keeps : KeepsTidy h h') (tidy : h.Tidy) : h'.Tidy := by
  refine ⟨fun fd now => (keeps.opened fd now).elim (tidy.nonneg fd) id,fun fd shut => ?_⟩
  rcases keeps.registered fd shut with none | ⟨before,same⟩
  · exact none
  · exact same.trans (tidy.registered fd before)

namespace KeepsTidy

theorem of_same (isOpen : h'.isOpen = h.isOpen) (interest : h'.interest = h.interest) : KeepsTidy h h' :=
  ⟨fun _ now => .inl (isOpen ▸ now),fun fd shut => .inr ⟨isOpen ▸ shut,congrFun interest fd⟩⟩

theorem refl (h : Host) : KeepsTidy h h := of_same rfl rfl

theorem trans {next : Host} (first : KeepsTidy h h') (second : KeepsTidy h' next) : KeepsTidy h next := by
  refine ⟨fun fd now => (second.opened fd now).elim (first.opened fd) .inr,fun fd shut => ?_⟩
  rcases second.registered fd shut with none | ⟨before,same⟩
  · exact .inl none
  · rcases first.registered fd before with none | ⟨start,same'⟩
    · exact .inl (same.trans none)
    · exact .inr ⟨start,same.trans same'⟩

theorem of_calm (calm : Calm h h') : KeepsTidy h h' := of_same calm.isOpen calm.interest

theorem observe (obs : Obs) (h : Host) : KeepsTidy h (h.observe obs) := of_same rfl rfl

theorem modify (p : Ptr) (change : SocketObject → SocketObject) (h : Host) : KeepsTidy h (h.modify p change) := of_same rfl rfl

theorem deleteFD (fd : FD) (h : Host) : KeepsTidy h (h.deleteFD fd) := by
  refine ⟨fun _ => .inl,fun other shut => ?_⟩
  by_cases same : other = fd
  · exact .inl (by simp [Host.deleteFD,same])
  · exact .inr ⟨shut,by simp [Host.deleteFD,same]⟩

theorem deleteObject (p : Ptr) (h : Host) : KeepsTidy h (h.deleteObject p) := of_same rfl rfl

theorem closeFD (fd : FD) (h : Host) : KeepsTidy h (h.closeFD fd) := by
  unfold Host.closeFD
  split
  · refine ⟨fun other now => .inl ?_,fun other shut => ?_⟩
    · by_cases same : other = fd
      · simp [same] at now
      · simpa [same] using now
    · by_cases same : other = fd
      · exact .inl (by simp [same])
      · exact .inr (by simpa [same] using shut)
  · exact refl h

theorem openFD {fd : FD} (nonneg : 0 ≤ fd) (h : Host) : KeepsTidy h (h.openFD fd) := by
  refine ⟨fun other now => ?_,fun other shut => .inr ?_⟩
  · by_cases same : other = fd
    · exact .inr (same ▸ nonneg)
    · exact .inl (by simpa [Host.openFD,same] using now)
  · by_cases same : other = fd
    · simp [Host.openFD,same] at shut
    · exact ⟨by simpa [Host.openFD,same] using shut,rfl⟩

theorem addFD (fd : FD) (pv : PVOID) (refused : Bool) (h : Host) : KeepsTidy h (h.addFD fd pv refused).2 := by
  unfold Host.addFD
  split
  · exact refl h
  · rename_i accepted
    refine ⟨fun _ => .inl,fun other shut => .inr ⟨shut,?_⟩⟩
    have differs : other ≠ fd := by
      rintro rfl
      simp [show h.isOpen other = false from shut] at accepted
    exact Function.update_of_ne differs (some pv) h.interest

theorem prepareObject (raw : SocketObject) (addr : Option Sockaddr) (connected : Option UInt32) (h : Host) :
    KeepsTidy h (h.prepareObject raw addr connected).2 := by
  cases addr <;> cases connected <;> exact of_same rfl rfl

theorem insertSocketObject (sock : SOCKET) (p : Ptr) (h : Host) : KeepsTidy h (h.insertSocketObject sock p) := of_same rfl rfl

theorem addTcpSocket (sock : SOCKET) (addr : Sockaddr) (raw : SocketObject) (now : UInt32) (refused : Bool) (h : Host) :
    KeepsTidy h (h.addTcpSocket sock addr raw now refused).2.2 :=
  h.addTcpSocket_rule sock addr raw now refused (refl h) (prepareObject raw (some addr) (some now) h)
    (fun host p kept => kept.trans (insertSocketObject sock p host))
    (fun host p kept => kept.trans (addFD sock (.object p) refused host))

theorem releaseSocketObjects (h : Host) : KeepsTidy h h.releaseSocketObjects := by
  obtain ⟨host,kept,same⟩ := h.releaseSocketObjects_rule (P := KeepsTidy h) (refl h)
    (fun host entry _ kept => kept.trans ((deleteFD entry.1 host).trans (deleteObject entry.2 _)))
  exact same ▸ kept.trans (of_same rfl rfl)

theorem closeManagerFds (h : Host) : KeepsTidy h h.closeManagerFds :=
  h.closeManagerFds_rule (P := KeepsTidy h) (refl h) (fun host fd kept => kept.trans (deleteFD fd host))
    (fun host fd kept => kept.trans (closeFD fd host)) (fun _ kept => kept.trans (of_same rfl rfl))

theorem startAccept (refused : Bool) (h : Host) : KeepsTidy h (Sys.startAccept refused h) := by
  unfold Sys.startAccept
  dsimp only
  split
  · exact (addFD h.listenSocket .listenSocket refused h).trans (of_same rfl rfl)
  · exact refl h

end KeepsTidy

end Host

namespace Sys

open Host

theorem Move.keepsTidy {h h' : Host} {w w' : Worker} {act : Act} (move : Move h w act h' w') : h.KeepsTidy h' := by
  cases move with
  | disconnected count b cmd queue p object front left kind found live valid =>
    exact (KeepsTidy.modify p SocketObject.setInvalid h).trans (.observe _ _)
  | closeAccepted sock ctx => exact .closeFD sock h
  | connected p sock ctx => exact .observe _ h
  | removeFD p sock count b => exact .deleteFD sock h
  | removeClose p sock count b => exact .closeFD sock h
  | removeDelete p sock count b => exact .deleteObject p h
  | timer exp now b => exact .of_calm (onTimer_calm exp now h)
  | clientRefused p events ctx soError now kind refused => exact .of_calm (onBeforeProcessIo_refused refused)
  | clientIo p events ctx soError now kind passed =>
    obtain ⟨object,_,_,⟨_,result⟩ | ⟨_,result⟩⟩ := onBeforeProcessIo_accepted passed
    · rw [result]
      exact .refl h
    · rw [result]
      exact (KeepsTidy.modify p (SocketObject.setConnected now.toNat) h).trans (.observe _ _)
  | accepted sock addr ctx conn rest listening waiting nonneg unused =>
    have taken : h.KeepsTidy {h with backlog := rest} := .of_same rfl rfl
    exact taken.trans (.openFD nonneg _)
  | added sock addr ctx raw now refused ok => exact .addTcpSocket sock addr raw now refused h
  | notAdded sock addr ctx raw now refused failed => exact .addTcpSocket sock addr raw now refused h
  | readStarted p events ctx now sock next started => exact .of_calm (startReceive_calm started).1
  | readOn p sock events ctx rc addr timeMs fits again =>
    obtain ⟨mid,buf,from_addr,calm,result⟩ := handleReceive_again again
    rw [result]
    exact (KeepsTidy.of_calm calm).trans (.observe _ mid)
  | readDone p sock events ctx rc addr timeMs rs fits done => exact .of_calm (handleReceive_done done)
  | written p ctx packet count front left fits =>
    obtain ⟨addr,sent⟩ := h.handleSend_ok p packet count
    rw [sent]
    exact (KeepsTidy.modify p (SocketObject.reduceFront count) h).trans (.observe _ _)
  | _ => exact .of_same rfl rfl

theorem CallStep.keepsTidy {h h' : Host} {w : Worker} {c c' : Caller} {reply : Reply} (call : CallStep h w c reply h' c') :
    h.KeepsTidy h' := by
  cases call with
  | evtWrite next =>
    unfold Host.writeCmdEvt
    split <;> exact .of_same rfl rfl
  | socket op addr sock nonneg unused => exact .openFD nonneg h
  | connected op addr sock raw now from_addr => exact .prepareObject raw from_addr (some now) h
  | inProgress addr sock raw => exact .prepareObject raw (some addr) none h
  | insert sock p notify => exact .insertSocketObject sock p h
  | addFD sock p notify reply refused => exact .addFD sock _ refused h
  | onConnect sock p => exact .observe _ h
  | closeSock sock => exact .closeFD sock h
  | closeListenSocket => exact .closeFD h.listenSocket h
  | release => exact .releaseSocketObjects h
  | closeFds => exact (KeepsTidy.closeManagerFds h).trans (.observe _ _)
  | _ => exact .of_same rfl rfl

theorem step_keepsTidy {s next : Sys} {act : Act} (taken : s.step act = some next) : s.host.KeepsTidy next.host := by
  cases step_taken taken with
  | startAccept refused kind => exact .startAccept refused s.host
  | sent act t sock addr raw buf p object sends kind idle found live valid room =>
    exact (KeepsTidy.modify p _ s.host).trans (.observe _ _)
  | limitSet sock num p change kind found which => exact .modify p change s.host
  | caller t c reply host later found may call => exact call.keepsTidy
  | worker act host worker idle move => exact move.keepsTidy
  | _ => exact .of_same rfl rfl

/-- In every run only open fds are registered. -/
theorem run_unregistered {config : Config} {acts : List Act} {s : Sys} (run : Run config acts s) :
    ∀ fd, s.host.isOpen fd = false → s.host.interest fd = none := by
  refine Transition.exec_invariant_free (I := fun s : Sys => ∀ fd, s.host.isOpen fd = false → s.host.interest fd = none)
    (fun s act next unregistered taken fd shut => ?_) (fun fd shut => ?_) run
  · rcases (step_keepsTidy taken).registered fd shut with none | ⟨before,same⟩
    · exact none
    · exact same.trans (unregistered fd before)
  · have away (other : FD) (opened : config.isOpen other = true) : fd ≠ other := by
      rintro rfl
      exact absurd opened ((Bool.not_eq_true _).mpr shut)
    have timer (same : fd = config.timerEvtFd) : ¬ fd ≠ invalidFd :=
      fun valid => away _ (config.timer_open (same ▸ valid)) same
    simp only [Config.started,Config.interest,away _ config.cmd_open.1,away _ config.exit_open.1,if_false]
    exact if_neg (fun both => timer both.1 both.2)

end Sys

end LightServer
