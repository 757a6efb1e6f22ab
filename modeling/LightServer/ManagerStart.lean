import LightServer.FileDescriptors
import LightServer.Operations

/-! `SocketManager::Start` from its call to its return, for every outcome of the system calls it makes.
Where it cannot go on it calls `Stop`, which undoes what has been stored so far. -/
namespace LightServer

structure Timespec where
  tvSec : Int
  tvNsec : Int

/-- What the system calls of `Start` answer; the answers of calls it does not come to are not looked at. -/
structure ManagerCalls where
  epollCreate1 : Except Errno FD
  cmdEventfd : Except Errno FD
  cmdRefused : Bool
  exitEventfd : Except Errno FD
  exitRefused : Bool
  clockGettime : Except Errno Timespec
  timerfdCreate : Except Errno FD
  timerfdSettime : Except Errno Unit
  timerRefused : Bool
  pthreadCreate : Except Errno Unit

namespace ManagerCalls

def obtained (calls : ManagerCalls) : List FD :=
  calls.epollCreate1.toOption.toList ++ calls.cmdEventfd.toOption.toList ++ calls.exitEventfd.toOption.toList ++
    calls.timerfdCreate.toOption.toList

/-- The system calls up to the registration of `cmd_evt_fd_` and `exit_evt_fd_` succeed. -/
def Registers (calls : ManagerCalls) : Prop :=
  (calls.epollCreate1.isOk ∧ calls.cmdEventfd.isOk ∧ calls.cmdRefused = false) ∧ calls.exitEventfd.isOk ∧ calls.exitRefused = false

/-- Every system call succeeds that `Start` makes with this interval. -/
def Succeed (interval : UInt64) (calls : ManagerCalls) : Prop :=
  calls.Registers ∧
    (0 < interval → calls.clockGettime.isOk ∧ calls.timerfdCreate.isOk ∧ calls.timerfdSettime.isOk ∧ calls.timerRefused = false) ∧
    calls.pthreadCreate.isOk

/-- `timerfd_settime` is reached and fails. -/
def SettimeFails (interval : UInt64) (calls : ManagerCalls) : Prop :=
  calls.Registers ∧ 0 < interval ∧ calls.clockGettime.isOk ∧ calls.timerfdCreate.isOk ∧ calls.timerfdSettime.isOk = false

instance (calls : ManagerCalls) : Decidable calls.Registers := inferInstanceAs (Decidable (_ ∧ _))

instance (interval : UInt64) (calls : ManagerCalls) : Decidable (calls.Succeed interval) := inferInstanceAs (Decidable (_ ∧ _))

instance (interval : UInt64) (calls : ManagerCalls) : Decidable (calls.SettimeFails interval) :=
  inferInstanceAs (Decidable (_ ∧ _))

end ManagerCalls

namespace Host

/-- The kernel hands out fds that are not open, each once. -/
def Granted (fds : List FD) (h : Host) : Prop := fds.Nodup ∧ ∀ fd ∈ fds, 0 ≤ fd ∧ h.isOpen fd = false

instance (fds : List FD) (h : Host) : Decidable (h.Granted fds) := inferInstanceAs (Decidable (_ ∧ _))

/-- The members of the manager that are registered under their own address. -/
def evtFd (pv : PVOID) (h : Host) : FD :=
  match pv with
  | .cmdEvtFd => h.cmdEvtFd
  | .exitEvtFd => h.exitEvtFd
  | .timerEvtFd => h.timerEvtFd
  | _ => invalidFd

/-- A new eventfd has nothing to be read. -/
def setEvtFd (pv : PVOID) (fd : FD) (h : Host) : Host :=
  match pv with
  | .cmdEvtFd => {h with cmdEvtFd := fd, cmdReady := false}
  | .exitEvtFd => {h with exitEvtFd := fd, exitReady := false}
  | .timerEvtFd => {h with timerEvtFd := fd}
  | _ => h

/-- The blocks of `Start` for `cmd_evt_fd_` and `exit_evt_fd_`. -/
def addEvt (pv : PVOID) (eventfd : Except Errno FD) (refused : Bool) (h : Host) : Bool × Host :=
  match eventfd with
  | .error _ => (false,h.setEvtFd pv invalidFd)
  | .ok fd => ((h.openFD fd).setEvtFd pv fd).addFD fd pv refused

/-- A timer that cannot be set is not closed. -/
def createTimer (calls : ManagerCalls) (h : Host) : FD × Host :=
  match calls.clockGettime, calls.timerfdCreate, calls.timerfdSettime with
  | .error _, _, _ => (-1,h)
  | .ok _, .error _, _ => (-1,h)
  | .ok _, .ok timerFd, .error _ => (-1,h.openFD timerFd)
  | .ok _, .ok timerFd, .ok _ => (timerFd,h.openFD timerFd)

def addTimer (calls : ManagerCalls) (h : Host) : Bool × Host :=
  let created := h.createTimer calls
  let added := created.2.addFD created.1 .timerEvtFd calls.timerRefused
  if added.1 then (true,added.2.setEvtFd .timerEvtFd created.1)
  else (false,(added.2.closeFD created.1).setEvtFd .timerEvtFd invalidFd)

/-- The next block of `Start`, unless one before it has left the loop. -/
def andThen (done : Bool × Host) (next : Host → Bool × Host) : Bool × Host := if done.1 then next done.2 else done

/-- The `do` loop of `Start`, once the epoll instance is there. -/
def setUp (interval : UInt64) (calls : ManagerCalls) (h : Host) : Bool × Host :=
  andThen (andThen (andThen (h.addEvt .cmdEvtFd calls.cmdEventfd calls.cmdRefused)
    (addEvt .exitEvtFd calls.exitEventfd calls.exitRefused))
    (fun host => if 0 < interval then host.addTimer calls else (true,host)))
    (fun host => (calls.pthreadCreate.isOk,host))

/-- A new epoll instance has no fd registered. -/
def createEpoll (fd : FD) (h : Host) : Host := {h.openFD fd with epollFd := fd, interest := fun _ => none}

def managedFds (h : Host) : List FD := [h.epollFd,h.exitEvtFd,h.cmdEvtFd,h.timerEvtFd]

end Host

/-- `SocketManager::Start`. The thread it creates begins with `epoll_pwait`; `Stop` may be called again. -/
def Sys.start (interval : UInt64) (calls : ManagerCalls) (s : Sys) : Int × Sys :=
  if s.host.hasStart then (-1,s)
  else
    match calls.epollCreate1 with
    | .error _ => (-1,{s with host := {s.host with epollFd := invalidFd}})
    | .ok fd =>
      let made := (s.host.createEpoll fd).setUp interval calls
      if made.1 then (0,{s.moveTo made.2 .epollPwait with stopCalled := false}) else (-1,{s with host := made.2.stopJoined.2})

namespace Host

variable {before h : Host} {fds : List FD} {fd : FD} {pv : PVOID} {calls : ManagerCalls}

/-- The process without what `Start` writes before it comes to `Stop`. -/
def outside (h : Host) : Host :=
  {h with epollFd := invalidFd, exitEvtFd := invalidFd, cmdEvtFd := invalidFd, timerEvtFd := invalidFd, maxEvents := 6,
          isOpen := fun _ => false, interest := fun _ => none, cmdReady := false, exitReady := false, listenReady := false,
          backlog := [], log := []}

/-- The fds that `Start` has opened so far are those it has stored. -/
structure Building (before : Host) (fds : List FD) (h : Host) : Prop where
  outside : h.outside = before.outside
  epoll : h.epollFd ≠ invalidFd
  isOpen : ∀ fd, h.isOpen fd = true ↔ before.isOpen fd = true ∨ fd ∈ fds
  fresh : ∀ fd ∈ fds, 0 ≤ fd ∧ before.isOpen fd = false
  stored : ∀ fd, fd ∈ fds ↔ fd ∈ h.managedFds ∧ fd ≠ invalidFd
  registered : ∀ fd, h.isOpen fd = false → h.interest fd = none

/-- A member that is valid, open and registered. -/
def Watches (pv : PVOID) (h : Host) : Prop :=
  h.evtFd pv ≠ invalidFd ∧ h.isOpen (h.evtFd pv) = true ∧ h.interest (h.evtFd pv) = some pv

instance (pv : PVOID) (h : Host) : Decidable (h.Watches pv) := inferInstanceAs (Decidable (_ ∧ _))

def IsEvt (pv : PVOID) : Prop := pv = .cmdEvtFd ∨ pv = .exitEvtFd ∨ pv = .timerEvtFd

/-- A block of `Start` about one member. -/
structure Block (before : Host) (pv : PVOID) (ok : Prop) (h : Host) (done : Bool × Host) (fds : List FD) : Prop where
  building : Building before fds done.2
  others : ∀ other, other ≠ pv → done.2.evtFd other = h.evtFd other
  kept : ∀ fd, h.isOpen fd = true → done.2.isOpen fd = true ∧ done.2.interest fd = h.interest fd
  goesOn : done.1 = true ↔ ok
  watches : done.1 = true → done.2.Watches pv

section rules

variable {P : Host → Prop} (openFD : ∀ fd ∈ calls.obtained, ∀ host, P host → P (host.openFD fd))
  (setEvtFd : ∀ host pv fd, P host → P (host.setEvtFd pv fd))
  (addFD : ∀ host fd pv refused, IsEvt pv → P host → P (host.addFD fd pv refused).2) (closeFD : ∀ host fd, P host → P (host.closeFD fd))

include openFD setEvtFd addFD in
theorem addEvt_rule (evt : IsEvt pv) {eventfd : Except Errno FD} (given : ∀ fd ∈ eventfd.toOption, fd ∈ calls.obtained) (refused : Bool)
    (start : P h) : P (h.addEvt pv eventfd refused).2 := by
  cases eventfd with
  | error code => exact setEvtFd h pv invalidFd start
  | ok fd => exact addFD _ fd pv refused evt (setEvtFd _ pv fd (openFD fd (given fd rfl) h start))

include openFD setEvtFd addFD closeFD in
theorem addTimer_rule (start : P h) : P (h.addTimer calls).2 := by
  have created : P (h.createTimer calls).2 := by
    have given (fd : FD) (created : calls.timerfdCreate = .ok fd) : fd ∈ calls.obtained := by
      simp [ManagerCalls.obtained,created,Except.toOption]
    unfold createTimer
    split
    · exact start
    · exact start
    · exact openFD _ (given _ ‹_›) h start
    · exact openFD _ (given _ ‹_›) h start
  have added := addFD _ (h.createTimer calls).1 .timerEvtFd calls.timerRefused (.inr (.inr rfl)) created
  unfold addTimer
  dsimp only
  split
  · exact setEvtFd _ .timerEvtFd _ added
  · exact setEvtFd _ .timerEvtFd invalidFd (closeFD _ _ added)

theorem andThen_rule {done : Bool × Host} {next : Host → Bool × Host} (first : P done.2)
    (second : ∀ host, P host → P (next host).2) : P (andThen done next).2 := by
  unfold andThen
  split
  · exact second done.2 first
  · exact first

include openFD setEvtFd addFD closeFD in
/-- What the parts of `setUp` keep, `setUp` keeps. -/
theorem setUp_rule (interval : UInt64) (start : P h) : P (h.setUp interval calls).2 := by
  refine andThen_rule (andThen_rule (andThen_rule ?_ (fun host kept => ?_)) (fun host kept => ?_)) (fun host kept => kept)
  · exact addEvt_rule openFD setEvtFd addFD (.inl rfl) (fun fd given => by simp [ManagerCalls.obtained,Option.mem_def.mp given]) _ start
  · exact addEvt_rule openFD setEvtFd addFD (.inr (.inl rfl)) (fun fd given => by simp [ManagerCalls.obtained,Option.mem_def.mp given]) _ kept
  · split
    · exact addTimer_rule openFD setEvtFd addFD closeFD kept
    · exact kept

end rules

theorem outside_closeFD (fd : FD) (h : Host) : (h.closeFD fd).outside = h.outside := by
  unfold closeFD
  split <;> rfl

theorem outside_addFD (fd : FD) (pv : PVOID) (refused : Bool) (h : Host) : (h.addFD fd pv refused).2.outside = h.outside := by
  unfold addFD
  split <;> rfl

theorem outside_setEvtFd (fd : FD) (pv : PVOID) (h : Host) : (h.setEvtFd pv fd).outside = h.outside := by cases pv <;> rfl

theorem isOpen_setEvtFd (fd : FD) (pv : PVOID) (h : Host) :
    (h.setEvtFd pv fd).isOpen = h.isOpen ∧ (h.setEvtFd pv fd).interest = h.interest ∧ (h.setEvtFd pv fd).epollFd = h.epollFd := by
  cases pv <;> exact ⟨rfl,rfl,rfl⟩

theorem evtFd_setEvtFd (evt : IsEvt pv) (fd : FD) (h : Host) :
    (h.setEvtFd pv fd).evtFd pv = fd ∧ ∀ other, other ≠ pv → (h.setEvtFd pv fd).evtFd other = h.evtFd other := by
  rcases evt with rfl | rfl | rfl
  all_goals exact ⟨rfl,fun other differs => by cases other <;> first | rfl | exact absurd rfl differs⟩

/-- The member is empty before it is set. -/
theorem mem_managedFds_setEvtFd (evt : IsEvt pv) (empty : h.evtFd pv = invalidFd) (fd other : FD) :
    other ∈ (h.setEvtFd pv fd).managedFds ∧ other ≠ invalidFd ↔ other ∈ h.managedFds ∧ other ≠ invalidFd ∨ other = fd ∧ fd ≠ invalidFd := by
  rcases evt with rfl | rfl | rfl
  all_goals
    simp only [evtFd] at empty
    simp only [managedFds,setEvtFd,empty,List.mem_cons,List.not_mem_nil,or_false]
    grind

@[simp] theorem isOpen_openFD_self (fd : FD) (h : Host) : (h.openFD fd).isOpen fd = true := by simp [openFD]

theorem isOpen_openFD_of_ne {other : FD} (differs : other ≠ fd) : (h.openFD fd).isOpen other = h.isOpen other := by
  simp [openFD,differs]

def watch (fd : FD) (pv : PVOID) (h : Host) : Host := {h with interest := Function.update h.interest fd (some pv)}

theorem addFD_open (started : h.epollFd ≠ invalidFd) (opened : h.isOpen fd = true) (unregistered : h.interest fd = none)
    (pv : PVOID) (refused : Bool) : h.addFD fd pv refused = if refused then (false,h) else (true,h.watch fd pv) := by
  cases refused <;> simp [addFD,hasStart,started,opened,unregistered,watch]

theorem addFD_member (started : h.epollFd ≠ invalidFd) (member : h.evtFd pv = fd) (valid : fd ≠ invalidFd)
    (opened : h.isOpen fd = true) (unregistered : h.interest fd = none) (refused : Bool) :
    ((h.addFD fd pv refused).1 = true ↔ refused = false) ∧
      (∀ other, (h.addFD fd pv refused).2.evtFd other = h.evtFd other) ∧
      (∀ other, (h.addFD fd pv refused).2.isOpen other = h.isOpen other ∧
        (other ≠ fd → (h.addFD fd pv refused).2.interest other = h.interest other)) ∧
      ((h.addFD fd pv refused).1 = true → (h.addFD fd pv refused).2.Watches pv) := by
  rw [addFD_open started opened unregistered]
  cases refused with
  | true => exact ⟨by simp,fun _ => rfl,fun _ => ⟨rfl,fun _ => rfl⟩,by simp⟩
  | false =>
    have members (other : PVOID) : (h.watch fd pv).evtFd other = h.evtFd other := by cases other <;> rfl
    refine ⟨by simp,members,fun other => ⟨rfl,fun differs => ?_⟩,fun _ => ?_⟩
    · exact Function.update_of_ne differs (some pv) h.interest
    · have same : (h.watch fd pv).evtFd pv = fd := (members pv).trans member
      refine ⟨fun invalid => valid (same.symm.trans invalid),(congrArg h.isOpen same).trans opened,?_⟩
      exact (congrArg (h.watch fd pv).interest same).trans (by simp [watch])

namespace Building

/-- What is asked of an fd the kernel hands out next. -/
def New (before : Host) (fds : List FD) (fd : FD) : Prop := 0 ≤ fd ∧ before.isOpen fd = false ∧ fd ∉ fds

theorem closed (building : Building before fds h) (new : New before fds fd) : h.isOpen fd = false := by
  obtain ⟨_,unused,fresh⟩ := new
  apply (Bool.not_eq_true _).mp
  intro now
  rcases (building.isOpen fd).mp now with old | member
  · simp [unused] at old
  · exact fresh member

theorem valid {fd : FD} (nonneg : 0 ≤ fd) : fd ≠ invalidFd := by
  rintro rfl
  exact absurd nonneg (by decide)

theorem unset (building : Building before fds h) (evt : IsEvt pv) (empty : h.evtFd pv = invalidFd) :
    Building before fds (h.setEvtFd pv invalidFd) := by
  obtain ⟨isOpen,interest,epollFd⟩ := h.isOpen_setEvtFd invalidFd pv
  refine ⟨(h.outside_setEvtFd invalidFd pv).trans building.outside,epollFd ▸ building.epoll,isOpen ▸ building.isOpen,building.fresh,
    fun other => ?_,isOpen ▸ interest ▸ building.registered⟩
  rw [building.stored other,mem_managedFds_setEvtFd evt empty invalidFd other]
  simp

theorem store (building : Building before fds h) (evt : IsEvt pv) (empty : h.evtFd pv = invalidFd) (new : New before fds fd) :
    Building before (fd::fds) ((h.openFD fd).setEvtFd pv fd) := by
  obtain ⟨isOpen,interest,epollFd⟩ := (h.openFD fd).isOpen_setEvtFd fd pv
  refine ⟨(outside_setEvtFd fd pv _).trans building.outside,epollFd ▸ building.epoll,fun other => ?_,?_,fun other => ?_,
    fun other shut => ?_⟩
  · rw [isOpen]
    by_cases same : other = fd
    · simp [openFD,same]
    · simp [openFD,same,building.isOpen other]
  · intro other member
    rcases List.mem_cons.mp member with rfl | old
    · exact ⟨new.1,new.2.1⟩
    · exact building.fresh other old
  · have empty : (h.openFD fd).evtFd pv = invalidFd := empty
    rw [mem_managedFds_setEvtFd evt empty fd other,List.mem_cons,building.stored other]
    have valid := valid new.1
    have same : (h.openFD fd).managedFds = h.managedFds := rfl
    rw [same]
    grind
  · rw [interest]
    rw [isOpen] at shut
    by_cases same : other = fd
    · simp [openFD,same] at shut
    · exact building.registered other (by simpa [openFD,same] using shut)

theorem invalid_closed (building : Building before fds h) (none : before.isOpen invalidFd = false) : h.isOpen invalidFd = false := by
  apply (Bool.not_eq_true _).mp
  intro now
  rcases (building.isOpen _).mp now with old | member
  · simp [none] at old
  · exact absurd (building.fresh _ member).1 (by decide)

theorem register (building : Building before fds h) (opened : h.isOpen fd = true) (pv : PVOID) (refused : Bool) :
    Building before fds (h.addFD fd pv refused).2 := by
  have outside := (h.outside_addFD fd pv refused).trans building.outside
  revert outside
  unfold addFD
  split
  · exact fun _ => building
  · refine fun outside => ⟨outside,building.epoll,building.isOpen,building.fresh,building.stored,fun other shut => ?_⟩
    have differs : other ≠ fd := by
      rintro rfl
      simp [opened] at shut
    simpa [differs] using building.registered other shut

end Building

theorem addEvt_block (building : Building before fds h) (evt : IsEvt pv) (empty : h.evtFd pv = invalidFd)
    (eventfd : Except Errno FD) (refused : Bool) (new : ∀ fd ∈ eventfd.toOption, Building.New before fds fd) :
    Block before pv (eventfd.isOk ∧ refused = false) h (h.addEvt pv eventfd refused) (eventfd.toOption.toList ++ fds) := by
  cases eventfd with
  | error code =>
    obtain ⟨isOpen,interest,_⟩ := h.isOpen_setEvtFd invalidFd pv
    refine ⟨building.unset evt empty,(evtFd_setEvtFd evt invalidFd h).2,fun fd opened => ?_,by simp [addEvt,Except.isOk,Except.toBool],
      by simp [addEvt]⟩
    exact ⟨(congrFun isOpen fd).trans opened,congrFun interest fd⟩
  | ok fd =>
    have fresh : Building.New before fds fd := new fd rfl
    have stored := building.store evt empty fresh
    obtain ⟨isOpen,interest,_⟩ := (h.openFD fd).isOpen_setEvtFd fd pv
    obtain ⟨set,others⟩ := evtFd_setEvtFd evt fd (h.openFD fd)
    have closed := building.closed fresh
    have opened : ((h.openFD fd).setEvtFd pv fd).isOpen fd = true := by rw [isOpen,isOpen_openFD_self]
    obtain ⟨goesOn,members,kept,watches⟩ := addFD_member stored.epoll set (Building.valid fresh.1) opened
      ((congrFun interest fd).trans (building.registered fd closed)) refused
    refine ⟨stored.register opened pv refused,fun other differs => (members other).trans (others other differs),fun other now => ?_,
      goesOn.trans (by simp [Except.isOk,Except.toBool]),watches⟩
    have differs : other ≠ fd := by
      rintro rfl
      simp [closed] at now
    refine ⟨(kept other).1.trans ?_,((kept other).2 differs).trans (congrFun interest other)⟩
    rw [isOpen,isOpen_openFD_of_ne differs,now]

theorem closeFD_closed (closed : h.isOpen fd = false) : h.closeFD fd = h := by simp [closeFD,closed]

theorem addFD_closed (closed : h.isOpen fd = false) (pv : PVOID) (refused : Bool) : h.addFD fd pv refused = (false,h) := by
  simp [addFD,closed]

theorem addTimer_set {timerFd : FD} (clock : calls.clockGettime.isOk) (created : calls.timerfdCreate = .ok timerFd)
    (set : calls.timerfdSettime.isOk) : h.addTimer calls =
      if ((h.openFD timerFd).addFD timerFd .timerEvtFd calls.timerRefused).1 then
        (true,((h.openFD timerFd).addFD timerFd .timerEvtFd calls.timerRefused).2.setEvtFd .timerEvtFd timerFd)
      else (false,(((h.openFD timerFd).addFD timerFd .timerEvtFd calls.timerRefused).2.closeFD timerFd).setEvtFd .timerEvtFd
        invalidFd) := by
  unfold addTimer createTimer
  cases now : calls.clockGettime with
  | error code => simp [now,Except.isOk,Except.toBool] at clock
  | ok time =>
    cases answer : calls.timerfdSettime with
    | error code => simp [answer,Except.isOk,Except.toBool] at set
    | ok _ => simp only [created]

/-- No timer that has been set: the member is reset, and what has been created stays open. -/
theorem addTimer_unset (unset : ¬ (calls.clockGettime.isOk ∧ calls.timerfdCreate.isOk ∧ calls.timerfdSettime.isOk))
    (none : h.isOpen invalidFd = false) (positive : ∀ fd ∈ calls.timerfdCreate.toOption, 0 ≤ fd) :
    h.addTimer calls = (false,(h.createTimer calls).2.setEvtFd .timerEvtFd invalidFd) := by
  have failed : (h.createTimer calls).1 = invalidFd ∧ (h.createTimer calls).2.isOpen invalidFd = false := by
    unfold createTimer
    split
    · exact ⟨rfl,none⟩
    · exact ⟨rfl,none⟩
    · rename_i timerFd _ _ created _
      have differs : invalidFd ≠ timerFd := by
        rintro rfl
        exact absurd (positive invalidFd (by simp [created,Except.toOption])) (by decide)
      exact ⟨rfl,(isOpen_openFD_of_ne differs).trans none⟩
    · rename_i clock created set
      simp [clock,created,set,Except.isOk,Except.toBool] at unset
  unfold addTimer
  simp only [failed.1,addFD_closed failed.2,closeFD_closed failed.2,Bool.false_eq_true,if_false]

theorem closeFD_openFD (closed : h.isOpen fd = false) (unregistered : h.interest fd = none) :
    ((h.openFD fd).closeFD fd).isOpen = h.isOpen ∧ ((h.openFD fd).closeFD fd).interest = h.interest ∧
      ((h.openFD fd).closeFD fd).managedFds = h.managedFds := by
  simp only [closeFD,isOpen_openFD_self,if_true]
  refine ⟨?_,?_,rfl⟩
  · simp [openFD,← closed]
  · exact Function.update_eq_self_iff.mpr unregistered.symm

theorem evtFd_closeFD (other : PVOID) (h : Host) : (h.closeFD fd).evtFd other = h.evtFd other := by
  unfold closeFD
  split <;> cases other <;> rfl

/-- An fd that `Start` opened and closed again is as if it had not been. -/
theorem Building.undone (building : Building before fds h) (fresh : Building.New before fds fd) :
    Building before fds ((h.openFD fd).closeFD fd) := by
  have unused := building.closed fresh
  obtain ⟨isOpen,interest,managedFds⟩ := closeFD_openFD unused (building.registered fd unused)
  have epollFd : ((h.openFD fd).closeFD fd).epollFd = h.epollFd := congrArg (fun fds => fds.headD 0) managedFds
  refine ⟨(outside_closeFD fd _).trans building.outside,?_,isOpen ▸ building.isOpen,building.fresh,managedFds ▸ building.stored,
    isOpen ▸ interest ▸ building.registered⟩
  rw [epollFd]
  exact building.epoll

theorem addTimer_registered {timerFd : FD} (building : Building before fds h) (empty : h.timerEvtFd = invalidFd)
    (fresh : Building.New before fds timerFd) (clock : calls.clockGettime.isOk) (created : calls.timerfdCreate = .ok timerFd)
    (set : calls.timerfdSettime.isOk) (accepted : calls.timerRefused = false) :
    h.addTimer calls = h.addEvt .timerEvtFd (.ok timerFd) false := by
  have unused := building.closed fresh
  have opened := h.isOpen_openFD_self timerFd
  have added := addFD_open (h := h.openFD timerFd) building.epoll opened (building.registered timerFd unused) .timerEvtFd
    calls.timerRefused
  have stored := building.store (.inr (.inr rfl)) empty fresh
  obtain ⟨isOpen,interest,_⟩ := (h.openFD timerFd).isOpen_setEvtFd timerFd .timerEvtFd
  rw [addTimer_set clock created set,added,accepted,addEvt,addFD_open stored.epoll ((congrFun isOpen timerFd).trans opened)
    ((congrFun interest timerFd).trans (building.registered timerFd unused))]
  rfl

/-- A timer that is refused is closed, and the member reset. -/
theorem addTimer_refused {timerFd : FD} (building : Building before fds h) (fresh : Building.New before fds timerFd)
    (clock : calls.clockGettime.isOk) (created : calls.timerfdCreate = .ok timerFd) (set : calls.timerfdSettime.isOk)
    (refused : calls.timerRefused = true) :
    h.addTimer calls = ((h.openFD timerFd).closeFD timerFd).addEvt .timerEvtFd (.error 0) true := by
  have added := addFD_open (h := h.openFD timerFd) building.epoll (h.isOpen_openFD_self timerFd)
    (building.registered timerFd (building.closed fresh)) .timerEvtFd calls.timerRefused
  rw [addTimer_set clock created set,added,refused]
  rfl

theorem addTimer_nothing (closed : h.isOpen invalidFd = false) (positive : ∀ fd ∈ calls.timerfdCreate.toOption, 0 ≤ fd)
    (unset : ¬ (calls.clockGettime.isOk ∧ calls.timerfdCreate.isOk ∧ calls.timerfdSettime.isOk))
    (settime : calls.clockGettime.isOk → calls.timerfdCreate.isOk → calls.timerfdSettime.isOk) :
    h.addTimer calls = h.addEvt .timerEvtFd (.error 0) true := by
  have nothing : (h.createTimer calls).2 = h := by
    unfold createTimer
    split
    · rfl
    · rfl
    · rename_i clock created failed
      simp [clock,created,failed,Except.isOk,Except.toBool] at settime
    · rename_i clock created done
      simp [clock,created,done,Except.isOk,Except.toBool] at unset
  rw [addTimer_unset unset closed positive,nothing]
  rfl

theorem addTimer_block (building : Building before fds h) (empty : h.timerEvtFd = invalidFd) (none : before.isOpen invalidFd = false)
    (new : ∀ fd ∈ calls.timerfdCreate.toOption, Building.New before fds fd)
    (settime : calls.clockGettime.isOk → calls.timerfdCreate.isOk → calls.timerfdSettime.isOk) :
    ∃ fds', Block before .timerEvtFd (calls.clockGettime.isOk ∧ calls.timerfdCreate.isOk ∧ calls.timerfdSettime.isOk ∧
      calls.timerRefused = false) h (h.addTimer calls) fds' := by
  have timer : IsEvt .timerEvtFd := .inr (.inr rfl)
  by_cases set : calls.clockGettime.isOk ∧ calls.timerfdCreate.isOk ∧ calls.timerfdSettime.isOk
  · obtain ⟨clock,created,set⟩ := set
    cases answer : calls.timerfdCreate with
    | error code => simp [answer,Except.isOk,Except.toBool] at created
    | ok timerFd =>
      have fresh : Building.New before fds timerFd := new timerFd (by simp [answer,Except.toOption])
      cases refused : calls.timerRefused with
      | false =>
        have block := addEvt_block building timer empty (.ok timerFd) false (by simpa [Except.toOption])
        rw [← addTimer_registered building empty fresh clock answer set refused] at block
        exact ⟨_,block.building,block.others,block.kept,
          block.goesOn.trans ⟨fun _ => ⟨clock,rfl,set,rfl⟩,fun _ => ⟨rfl,rfl⟩⟩,block.watches⟩
      | true =>
        have unused := building.closed fresh
        obtain ⟨isOpen,interest,_⟩ := closeFD_openFD unused (building.registered timerFd unused)
        have block := addEvt_block (building.undone fresh) timer ((evtFd_closeFD .timerEvtFd _).trans empty) (.error 0) true
          (by simp [Except.toOption])
        rw [← addTimer_refused building fresh clock answer set refused] at block
        refine ⟨_,block.building,fun other differs => (block.others other differs).trans (evtFd_closeFD other _),fun fd now => ?_,
          block.goesOn.trans (by simp),block.watches⟩
        rw [← interest]
        exact block.kept fd ((congrFun isOpen fd).trans now)
  · have block := addEvt_block building timer empty (.error 0) true (by simp [Except.toOption])
    rw [← addTimer_nothing (building.invalid_closed none) (fun fd member => (new fd member).1) set settime] at block
    refine ⟨_,block.building,block.others,block.kept,block.goesOn.trans ⟨fun ok => absurd ok.2 (by simp),fun ok => ?_⟩,block.watches⟩
    exact absurd ⟨ok.1,ok.2.1,ok.2.2.1⟩ set

theorem andThen_goesOn {done : Bool × Host} (goesOn : done.1 = true) (next : Host → Bool × Host) :
    andThen done next = next done.2 := if_pos goesOn

theorem andThen_left {done : Bool × Host} (left : done.1 = false) (next : Host → Bool × Host) : andThen done next = done := by
  simp [andThen,left]

theorem createEpoll_building (unset : h.managed = (invalidFd,invalidFd,invalidFd,invalidFd)) (nonneg : 0 ≤ fd)
    (unused : h.isOpen fd = false) : Building h [fd] (h.createEpoll fd) := by
  simp only [managed,Prod.mk.injEq] at unset
  obtain ⟨_,exit,cmd,timer⟩ := unset
  have valid := Building.valid nonneg
  refine ⟨rfl,valid,fun other => ?_,by simp [nonneg,unused],fun other => ?_,fun _ _ => rfl⟩
  · by_cases same : other = fd <;> simp [createEpoll,openFD,same]
  · simp only [managedFds,createEpoll,openFD,exit,cmd,timer,List.mem_cons,List.not_mem_nil,or_false]
    grind

namespace Granted

/-- Each of the fds that `Start` is given is new where it comes. -/
theorem new {calls : ManagerCalls} (granted : before.Granted calls.obtained) (epoll : calls.epollCreate1 = .ok fd) :
    (∀ cmd ∈ calls.cmdEventfd.toOption, Building.New before [fd] cmd) ∧
    (∀ exit ∈ calls.exitEventfd.toOption, Building.New before (calls.cmdEventfd.toOption.toList ++ [fd]) exit) ∧
    ∀ timer ∈ calls.timerfdCreate.toOption,
      Building.New before (calls.exitEventfd.toOption.toList ++ (calls.cmdEventfd.toOption.toList ++ [fd])) timer := by
  obtain ⟨distinct,unused⟩ := granted
  have first : calls.epollCreate1.toOption.toList = [fd] := by rw [epoll]; rfl
  simp only [ManagerCalls.obtained,first,List.nodup_append] at distinct
  obtain ⟨⟨⟨_,_,cmd_new⟩,_,exit_new⟩,_,timer_new⟩ := distinct
  simp only [ManagerCalls.obtained,List.mem_append,Option.mem_toList] at unused exit_new timer_new cmd_new
  refine ⟨fun cmd given => ?_,fun exit given => ?_,fun timer given => ?_⟩
  · obtain ⟨nonneg,shut⟩ := unused cmd (.inl (.inl (.inr given)))
    exact ⟨nonneg,shut,fun old => cmd_new cmd old cmd given rfl⟩
  · obtain ⟨nonneg,shut⟩ := unused exit (.inl (.inr given))
    refine ⟨nonneg,shut,fun old => exit_new exit ?_ exit given rfl⟩
    exact (List.mem_append.mp old).symm.imp_right Option.mem_toList.mp
  · obtain ⟨nonneg,shut⟩ := unused timer (.inr given)
    refine ⟨nonneg,shut,fun old => timer_new timer ?_ timer given rfl⟩
    simp only [List.mem_append,Option.mem_toList] at old
    exact old.symm.imp_left Or.symm

end Granted

/-- What the loop of `Start` leaves behind, whether it ends or is left. -/
structure Made (before : Host) (interval : UInt64) (calls : ManagerCalls) (made : Bool × Host) : Prop where
  goesOn : made.1 = true ↔ calls.Succeed interval
  outside : made.2.outside = before.outside
  epoll : made.2.epollFd ≠ invalidFd
  stored : ¬ calls.SettimeFails interval → ∃ fds, Building before fds made.2
  leaked : calls.SettimeFails interval →
    ∃ fd, before.isOpen fd = false ∧ made.2.isOpen fd = true ∧ fd ∉ made.2.managedFds
  watches : made.1 = true → made.2.Watches .cmdEvtFd ∧ made.2.Watches .exitEvtFd ∧ (0 < interval → made.2.Watches .timerEvtFd)

theorem Building.made (building : Building before fds h) {interval : UInt64} (failed : ¬ calls.Succeed interval)
    (set : ¬ calls.SettimeFails interval) : Made before interval calls (false,h) :=
  ⟨⟨fun goesOn => absurd goesOn (by simp),fun ok => absurd ok failed⟩,building.outside,building.epoll,fun _ => ⟨fds,building⟩,
    fun fails => absurd fails set,fun goesOn => absurd goesOn (by simp)⟩

/-- A call that fails ends the loop. -/
theorem Block.ends {ok : Prop} {done : Bool × Host} {fds : List FD} (block : Block before pv ok h done fds) (left : done.1 = false)
    {interval : UInt64} (succeed : calls.Succeed interval → ok) (fails : calls.SettimeFails interval → ok) :
    Made before interval calls done := by
  have failed : ¬ ok := fun reached => by simp [block.goesOn.mpr reached] at left
  have result : done = (false,done.2) := Prod.ext left rfl
  rw [result]
  exact block.building.made (fun succeeds => failed (succeed succeeds)) (fun settime => failed (fails settime))

theorem Block.still {ok : Prop} {done : Bool × Host} {fds : List FD} (block : Block before pv ok h done fds) {other : PVOID}
    (differs : other ≠ pv) (watches : h.Watches other) : done.2.Watches other := by
  have same := block.others other differs
  obtain ⟨valid,opened,registered⟩ := watches
  obtain ⟨still,interest⟩ := block.kept _ opened
  exact ⟨fun invalid => valid (same.symm.trans invalid),(congrArg done.2.isOpen same).trans still,
    ((congrArg done.2.interest same).trans interest).trans registered⟩

/-- The end of the loop, from the fds it needs to the thread. -/
theorem setUp_end {done : Bool × Host} {interval : UInt64} (building : Building before fds done.2) {ok : Prop}
    (goesOn : done.1 = true ↔ ok) (succeed : calls.Succeed interval ↔ ok ∧ calls.pthreadCreate.isOk)
    (set : ¬ calls.SettimeFails interval)
    (watches : done.1 = true → done.2.Watches .cmdEvtFd ∧ done.2.Watches .exitEvtFd ∧ (0 < interval → done.2.Watches .timerEvtFd)) :
    Made before interval calls (andThen done (fun host => (calls.pthreadCreate.isOk,host))) := by
  cases result : done.1 with
  | false =>
    have failed : ¬ ok := fun reached => by simp [goesOn.mpr reached] at result
    rw [andThen_left result,show done = (false,done.2) from Prod.ext result rfl]
    exact building.made (fun succeeds => failed (succeed.mp succeeds).1) set
  | true =>
    rw [andThen_goesOn result]
    refine ⟨?_,building.outside,building.epoll,fun _ => ⟨fds,building⟩,fun fails => absurd fails set,fun _ => watches result⟩
    exact ⟨fun created => succeed.mpr ⟨goesOn.mp result,created⟩,fun succeeds => (succeed.mp succeeds).2⟩

/-- A timer that cannot be set is left open, and not stored. -/
theorem addTimer_leaks (building : Building before fds h) (empty : h.timerEvtFd = invalidFd) (none : before.isOpen invalidFd = false)
    (new : ∀ fd ∈ calls.timerfdCreate.toOption, Building.New before fds fd) (clock : calls.clockGettime.isOk)
    (created : calls.timerfdCreate.isOk) (failed : calls.timerfdSettime.isOk = false) :
    (h.addTimer calls).1 = false ∧ (h.addTimer calls).2.outside = before.outside ∧ (h.addTimer calls).2.epollFd ≠ invalidFd ∧
      ∃ fd, before.isOpen fd = false ∧ (h.addTimer calls).2.isOpen fd = true ∧ fd ∉ (h.addTimer calls).2.managedFds := by
  have unset : ¬ (calls.clockGettime.isOk ∧ calls.timerfdCreate.isOk ∧ calls.timerfdSettime.isOk) := by simp [failed]
  have result := addTimer_unset unset (building.invalid_closed none) (fun fd member => (new fd member).1)
  cases now : calls.clockGettime with
  | error code => simp [now,Except.isOk,Except.toBool] at clock
  | ok time =>
    cases answer : calls.timerfdCreate with
    | error code => simp [answer,Except.isOk,Except.toBool] at created
    | ok timerFd =>
      cases set : calls.timerfdSettime with
      | ok _ => simp [set,Except.isOk,Except.toBool] at failed
      | error code =>
        have opened : (h.createTimer calls).2 = h.openFD timerFd := by simp only [createTimer,now,answer,set]
        obtain ⟨nonneg,unused,fresh⟩ := new timerFd (by simp [answer,Except.toOption])
        rw [result,opened]
        refine ⟨rfl,building.outside,building.epoll,timerFd,unused,h.isOpen_openFD_self timerFd,fun member => fresh ?_⟩
        have valid := Building.valid nonneg
        rw [building.stored timerFd]
        have stored := (mem_managedFds_setEvtFd (h := h.openFD timerFd) (.inr (.inr rfl)) empty invalidFd timerFd).mp ⟨member,valid⟩
        exact stored.elim id (fun same => absurd rfl same.2)

theorem setUp_made (interval : UInt64) (granted : h.Granted calls.obtained) (none : h.isOpen invalidFd = false)
    (unset : h.managed = (invalidFd,invalidFd,invalidFd,invalidFd)) (epoll : calls.epollCreate1 = .ok fd) :
    Made h interval calls ((h.createEpoll fd).setUp interval calls) := by
  obtain ⟨newCmd,newExit,newTimer⟩ := granted.new epoll
  have members : fd ∈ calls.obtained := by simp [ManagerCalls.obtained,epoll,Except.toOption]
  obtain ⟨nonneg,unused⟩ := granted.2 fd members
  have epollOk : calls.epollCreate1.isOk = true := by simp [epoll,Except.isOk,Except.toBool]
  have building := createEpoll_building unset nonneg unused
  simp only [managed,Prod.mk.injEq] at unset
  obtain ⟨_,noExit,noCmd,noTimer⟩ := unset
  have cmd := addEvt_block building (.inl rfl) noCmd calls.cmdEventfd calls.cmdRefused newCmd
  unfold setUp
  generalize (h.createEpoll fd).addEvt .cmdEvtFd calls.cmdEventfd calls.cmdRefused = afterCmd at cmd ⊢
  cases goesOn : afterCmd.1 with
  | false =>
    rw [andThen_left goesOn,andThen_left goesOn,andThen_left goesOn]
    exact cmd.ends goesOn (fun succeed => succeed.1.1.2) (fun fails => fails.1.1.2)
  | true =>
    rw [andThen_goesOn goesOn]
    have exit := addEvt_block cmd.building (.inr (.inl rfl)) ((cmd.others .exitEvtFd (by simp)).trans noExit) calls.exitEventfd
      calls.exitRefused newExit
    generalize afterCmd.2.addEvt .exitEvtFd calls.exitEventfd calls.exitRefused = afterExit at exit ⊢
    cases goesOn' : afterExit.1 with
    | false =>
      rw [andThen_left goesOn',andThen_left goesOn']
      exact exit.ends goesOn' (fun succeed => succeed.1.2) (fun fails => fails.1.2)
    | true =>
      rw [andThen_goesOn goesOn']
      have registers : calls.Registers := ⟨⟨epollOk,cmd.goesOn.mp goesOn⟩,exit.goesOn.mp goesOn'⟩
      have noTimer : afterExit.2.timerEvtFd = invalidFd :=
        (exit.others .timerEvtFd (by simp)).trans ((cmd.others .timerEvtFd (by simp)).trans noTimer)
      have cmdWatches := exit.still (by simp) (cmd.watches goesOn)
      have exitWatches := exit.watches goesOn'
      by_cases timed : 0 < interval
      · rw [if_pos timed]
        by_cases settime : calls.clockGettime.isOk → calls.timerfdCreate.isOk → calls.timerfdSettime.isOk
        · obtain ⟨fds,timer⟩ := addTimer_block exit.building noTimer none newTimer settime
          refine setUp_end timer.building timer.goesOn ?_ ?_ (fun went => ?_)
          · exact ⟨fun succeed => ⟨succeed.2.1 timed,succeed.2.2⟩,fun ok => ⟨registers,fun _ => ok.1,ok.2⟩⟩
          · rintro ⟨_,_,clock,created,failed⟩
            simp [settime clock created] at failed
          · exact ⟨timer.still (by simp) cmdWatches,timer.still (by simp) exitWatches,fun _ => timer.watches went⟩
        · obtain ⟨clock,created,failed⟩ : calls.clockGettime.isOk ∧ calls.timerfdCreate.isOk ∧ calls.timerfdSettime.isOk = false := by
            simpa using settime
          obtain ⟨left,outside,epoll,leaked⟩ := addTimer_leaks exit.building noTimer none newTimer clock created failed
          rw [andThen_left left]
          refine ⟨?_,outside,epoll,fun set => absurd ⟨registers,timed,clock,created,failed⟩ set,fun _ => leaked,by simp [left]⟩
          simp only [left,Bool.false_eq_true,false_iff]
          intro succeed
          simp [(succeed.2.1 timed).2.2.1] at failed
      · rw [if_neg timed]
        have untimed : (true,afterExit.2).1 = true ↔ True := by simp
        refine setUp_end exit.building untimed ?_ (fun fails => timed fails.2.1) (fun _ => ?_)
        · exact ⟨fun succeed => ⟨trivial,succeed.2.2⟩,fun ok => ⟨registers,fun now => absurd now timed,ok.2⟩⟩
        · exact ⟨cmdWatches,exitWatches,fun now => absurd now timed⟩

/-! What `Stop` undoes. -/

theorem isOpen_closeManagerFds (none : h.isOpen invalidFd = false) (fd : FD) :
    h.closeManagerFds.isOpen fd = true ↔ h.isOpen fd = true ∧ fd ∉ h.managedFds := by
  have release (fd : FD) (host : Host) (shut : host.isOpen invalidFd = false) :
      (if fd != invalidFd then (host.deleteFD fd).closeFD fd else host).isOpen = Function.update host.isOpen fd false := by
    split
    · rw [isOpen_closeFD]
      rfl
    · rename_i invalid
      obtain rfl : fd = invalidFd := by simpa using invalid
      exact (Function.update_eq_self_iff.mpr shut.symm).symm
  have epoll (fd : FD) (host : Host) (shut : host.isOpen invalidFd = false) :
      (if fd != invalidFd then host.closeFD fd else host).isOpen = Function.update host.isOpen fd false := by
    split
    · exact isOpen_closeFD fd host
    · rename_i invalid
      obtain rfl : fd = invalidFd := by simpa using invalid
      exact (Function.update_eq_self_iff.mpr shut.symm).symm
  have shut {isOpen : FD → Bool} (closed : isOpen invalidFd = false) (fd : FD) : Function.update isOpen fd false invalidFd = false := by
    by_cases same : invalidFd = fd <;> simp [same,closed]
  have cmd := release h.cmdEvtFd h none
  have exit := release h.exitEvtFd _ (cmd ▸ shut none _)
  have timer := release h.timerEvtFd _ (exit ▸ cmd ▸ shut (shut none _) _)
  have all := epoll h.epollFd _ (timer ▸ exit ▸ cmd ▸ shut (shut (shut none _) _) _)
  simp only [closeManagerFds,reset]
  rw [all,timer,exit,cmd]
  simp only [Function.update_apply,managedFds,List.mem_cons,List.not_mem_nil,or_false]
  grind

theorem outside_closeManagerFds (h : Host) : h.closeManagerFds.outside = h.outside :=
  h.closeManagerFds_rule (P := fun host => host.outside = h.outside) rfl (fun _ _ kept => kept)
    (fun host fd kept => (outside_closeFD fd host).trans kept) (fun _ kept => kept)

/-- `Stop` after a start that failed: everything the manager holds is given up. -/
theorem stopJoined_undoes (started : h.epollFd ≠ invalidFd) (none : h.isOpen invalidFd = false) :
    h.stopJoined.2.sockObjectMap = ∅ ∧ h.stopJoined.2.cmdQueue = [] ∧
      h.stopJoined.2.managed = (invalidFd,invalidFd,invalidFd,invalidFd) ∧
      (∀ fd, h.stopJoined.2.isOpen fd = true ↔ h.isOpen fd = true ∧ fd ∉ h.managedFds) ∧
      (h.sockObjectMap = ∅ → h.stopJoined.2.outside = {h.outside with cmdQueue := []}) := by
  have stopped : h.stopJoined.2 = (Host.releaseSocketObjects {h with cmdQueue := []}).closeManagerFds := by
    simp [stopJoined,hasStart,started]
  obtain ⟨host,⟨isOpen,managedFds⟩,released⟩ := Host.releaseSocketObjects_rule {h with cmdQueue := []}
    (P := fun host => host.isOpen = h.isOpen ∧ host.managedFds = h.managedFds) ⟨rfl,rfl⟩ (fun _ _ _ kept => kept)
  have queue : (Host.releaseSocketObjects {h with cmdQueue := []}).cmdQueue = [] :=
    congrArg Prod.fst (Host.control_releaseSocketObjects {h with cmdQueue := []})
  have shut : (Host.releaseSocketObjects {h with cmdQueue := []}).isOpen invalidFd = false := by
    rw [released]
    exact (congrFun isOpen invalidFd).trans none
  have outside := outside_closeManagerFds (Host.releaseSocketObjects {h with cmdQueue := []})
  rw [stopped]
  refine ⟨?_,?_,rfl,fun fd => ?_,fun map => outside.trans ?_⟩
  · rw [sockObjectMap_closeManagerFds]
    rfl
  · exact (congrArg Host.cmdQueue outside).trans queue
  · rw [isOpen_closeManagerFds shut fd,released]
    exact and_congr (by rw [isOpen]) (by rw [show Host.managedFds {host with sockObjectMap := ∅} = h.managedFds from managedFds])
  · have entries : ({h with cmdQueue := []} : Host).sockObjectMap.entries = [] := by
      rw [show ({h with cmdQueue := []} : Host).sockObjectMap = ∅ from map]
      rfl
    rw [releaseSocketObjects,entries,List.foldl_nil,← map]
    rfl

end Host

end LightServer
