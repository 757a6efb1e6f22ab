import LightServer.OwnedConnections
import LightServer.ReceiveCalls

/-! The sockets of a `TcpClient` or a `UdpServer`: entries of the map, sockets that a thread is about to
enter or to close, and sockets that have been given up open. -/
namespace LightServer

namespace Table

/-- `base` are the fds that were open at the start and `lost` the sockets that have been given up. -/
structure Spent (base : FD → Bool) (T : Table) (role : Role) (held : SOCKET → Prop) (lost : List FD) : Prop where
  opened : ∀ fd, T.isOpen fd = true →
    base fd = true ∨ (T.find fd).isSome = true ∧ role.closing fd = false ∨ held fd ∨ fd ∈ lost
  lost : ∀ fd ∈ lost, base fd = false ∧ T.isOpen fd = true ∧ ¬ held fd ∧ ((T.find fd).isSome = true → role.closing fd = true)
  theirs : ∀ fd, base fd = true → T.isOpen fd = true ∧ T.find fd = none ∧ ¬ held fd

variable {base : FD → Bool} {T T' : Table} {role role' : Role} {held held' : SOCKET → Prop} {lost : List FD}

theorem Spent.turn (spent : T.Spent base role held lost) (find : T'.find = T.find) (isOpen : T'.isOpen = T.isOpen)
    (closing : ∀ fd, role'.closing fd = role.closing fd) (holds : ∀ fd, held' fd ↔ held fd) : T'.Spent base role' held' lost := by
  refine ⟨fun fd now => ?_,fun fd member => ?_,fun fd mine => ?_⟩
  · rw [find,closing,holds]
    exact spent.opened fd (isOpen ▸ now)
  · rw [find,isOpen,closing,holds]
    exact spent.lost fd member
  · rw [find,isOpen,holds]
    exact spent.theirs fd mine

theorem Work.spent (work : Work T role T' role') (serving : role ≠ .accepting ∧ ∀ sock, role ≠ .holding sock)
    (removing : ∀ stage p sock, role = .removing stage p sock → T.find sock = some p) (spent : T.Spent base role held lost) :
    T'.Spent base role' held lost := by
  cases work with
  | rest _ _ settled later =>
    have idle (fd : FD) : role.closing fd = false := by
      cases role <;> simp_all [Role.closing,Role.settled]
    refine spent.turn rfl rfl (fun fd => ?_) (fun _ => .rfl)
    rcases later with rfl | rfl | ⟨p,sock,rfl,rfl⟩
    · rfl
    · exact (idle fd).symm
    · rfl
  | connect p sock _ kind core later =>
    refine spent.turn rfl rfl (fun fd => ?_) (fun _ => .rfl)
    rcases later with rfl | rfl <;> rfl
  | accept sock nonneg unused listening => exact absurd rfl serving.1
  | add sock registered absent registers => exact absurd rfl (serving.2 sock)
  | leak sock core present => exact absurd rfl (serving.2 sock)
  | closeAccepted sock => exact absurd rfl (serving.2 sock)
  | removeClose p sock =>
    have at_sock : T.find sock = some p := removing _ _ _ rfl
    have find : (T.closeFD sock).find = T.find := by
      unfold closeFD
      split <;> rfl
    have still {fd : FD} (other : fd ≠ sock) : (T.closeFD sock).isOpen fd = T.isOpen fd := by
      rw [isOpen_closeFD,Function.update_of_ne other]
    refine ⟨fun fd now => ?_,fun fd member => ?_,fun fd mine => ?_⟩
    · have other : fd ≠ sock := by
        rintro rfl
        simp [isOpen_closeFD] at now
      rw [find]
      refine (spent.opened fd ((still other).symm.trans now)).imp_right (Or.imp_left (fun entry => ⟨entry.1,?_⟩))
      simpa [Role.closing] using Ne.symm other
    · obtain ⟨fresh,opened,free,closed⟩ := spent.lost fd member
      have other : fd ≠ sock := by
        rintro rfl
        simp [at_sock,Role.closing] at closed
      rw [find,still other]
      exact ⟨fresh,opened,free,fun entered => absurd (closed entered) (by simp [Role.closing])⟩
    · obtain ⟨opened,missing,free⟩ := spent.theirs fd mine
      have other : fd ≠ sock := by
        rintro rfl
        simp [at_sock] at missing
      rw [find,still other]
      exact ⟨opened,missing,free⟩
  | removeErase p sock =>
    have kept {fd : FD} (other : fd ≠ sock) : Function.update T.find sock none fd = T.find fd := Function.update_of_ne other _ _
    refine ⟨fun fd now => ?_,fun fd member => ?_,fun fd mine => ?_⟩
    · refine (spent.opened fd now).imp_right (Or.imp_left (fun entry => ?_))
      have other : fd ≠ sock := by
        rintro rfl
        simp [Role.closing] at entry
      exact ⟨(congrArg Option.isSome (kept other)).trans entry.1,rfl⟩
    · obtain ⟨fresh,opened,free,closed⟩ := spent.lost fd member
      refine ⟨fresh,opened,free,fun entered => ?_⟩
      by_cases same : fd = sock
      · simp [same] at entered
      · have before := closed ((congrArg Option.isSome (kept same)).symm.trans entered)
        exact absurd before (by simpa [Role.closing] using Ne.symm same)
    · obtain ⟨opened,missing,free⟩ := spent.theirs fd mine
      refine ⟨opened,?_,free⟩
      by_cases same : fd = sock
      · simp [same]
      · exact (kept same).trans missing
  | _ => exact spent.turn rfl rfl (fun _ => rfl) (fun _ => .rfl)

end Table

theorem View.Step.spent {base : FD → Bool} {v v' : View} {held : SOCKET → Prop} {lost : List FD} (step : View.Step v v')
    (alone : v.tasks = []) (serving : v.role ≠ .accepting ∧ ∀ sock, v.role ≠ .holding sock)
    (removing : ∀ stage p sock, v.role = .removing stage p sock → v.table.find sock = some p)
    (spent : v.table.Spent base v.role held lost) : v'.table.Spent base v'.role held lost := by
  cases step with
  | work T role pending tasks T' role' work => exact work.spent serving removing spent
  | call T role pending exited tasks t task T' task' found call => simp [show tasks = [] from alone] at found
  | event T p pending tasks => exact spent.turn rfl rfl (fun _ => rfl) (fun _ => .rfl)
  | command T fd p pending tasks found => exact spent.turn rfl rfl (fun _ => rfl) (fun _ => .rfl)
  | _ => exact spent

namespace Sys

/-- The sockets that a thread gives up in a step and does not close: `AsynchConnectTo` when `connect` fails,
and `AddSocketObject` when it finds the number in the map. -/
def givenUp (s : Sys) (act : Act) : List FD :=
  match act with
  | .caller t reply =>
    match s.callers[t]?, reply with
    | some (.connect .asynchConnectTo _ sock), .failed _ => [sock]
    | some (.count sock _ _), .done => if sock ∈ s.host.sockObjectMap then [sock] else []
    | _, _ => []
  | _ => []

/-- A thread has opened the socket and not yet entered or closed it. -/
def Holds (s : Sys) (sock : SOCKET) : Prop := ∃ c ∈ s.callers, c.holds = some sock

abbrev Spent (base : FD → Bool) (s : Sys) (lost : List FD) : Prop := s.host.table.Spent base s.worker.role s.Holds lost

variable {base : FD → Bool} {s next : Sys} {lost : List FD} {t : Nat} {c c' : Caller}

theorem started_spent (config : Config) : Spent config.isOpen config.started [] := by
  have free (sock : SOCKET) : ¬ config.started.Holds sock := by
    rintro ⟨c,member,holds⟩
    obtain rfl : c = .idle := by
      simp only [Config.started,List.mem_replicate] at member
      exact member.2
    simp [Caller.holds] at holds
  exact ⟨fun fd now => .inl now,by simp,fun fd mine => ⟨mine,rfl,free fd⟩⟩

theorem holds_set_iff (owns : Owns s) (found : s.callers[t]? = some c) {host : Host} {stopCalled : Bool} (sock : SOCKET) :
    Holds ⟨host,s.worker,s.callers.set t c',stopCalled⟩ sock ↔ c'.holds = some sock ∨ s.Holds sock ∧ c.holds ≠ some sock := by
  have bound := (List.getElem?_eq_some_iff.mp found).1
  constructor
  · intro held
    rcases holds_set found held with mine | ⟨u,d,differs,at_u,held⟩
    · exact .inl mine
    · exact .inr ⟨⟨d,List.mem_of_getElem? at_u,held⟩,fun mine => differs (owns.alone u t d c sock at_u found held mine)⟩
  · rintro (mine | ⟨⟨d,member,held⟩,other⟩)
    · exact ⟨c',List.mem_of_getElem? (List.getElem?_set_self bound),mine⟩
    · obtain ⟨u,at_u⟩ := List.mem_iff_getElem?.mp member
      have differs : u ≠ t := by
        rintro rfl
        obtain rfl := Option.some.inj (at_u.symm.trans found)
        exact other held
      exact ⟨d,List.mem_of_getElem? ((List.getElem?_set_ne (Ne.symm differs)).trans at_u),held⟩

theorem holds_same (owns : Owns s) (found : s.callers[t]? = some c) (same : c'.holds = c.holds) {host : Host} {stopCalled : Bool}
    (sock : SOCKET) : Holds ⟨host,s.worker,s.callers.set t c',stopCalled⟩ sock ↔ s.Holds sock := by
  rw [holds_set_iff owns found,same]
  by_cases mine : c.holds = some sock
  · exact iff_of_true (.inl mine) ⟨c,List.mem_of_getElem? found,mine⟩
  · simp [mine]

/-- What is held when a thread has given its socket up. -/
theorem holds_given (owns : Owns s) (found : s.callers[t]? = some c) {sock : SOCKET} (holds : c.holds = some sock)
    (free : c'.holds = none) {host : Host} {stopCalled : Bool} (fd : SOCKET) :
    Holds ⟨host,s.worker,s.callers.set t c',stopCalled⟩ fd ↔ s.Holds fd ∧ fd ≠ sock := by
  rw [holds_set_iff owns found]
  simp [holds,free,ne_comm]

theorem Spent.goes (spent : s.Spent base lost) (owns : Owns s) (found : s.callers[t]? = some c) (same : c'.holds = c.holds)
    {host : Host} {stopCalled : Bool} (find : host.table.find = s.host.table.find) (isOpen : host.table.isOpen = s.host.table.isOpen) :
    Spent base ⟨host,s.worker,s.callers.set t c',stopCalled⟩ lost :=
  spent.turn find isOpen (fun _ => rfl) (holds_same owns found same)

theorem Spent.opens (spent : s.Spent base lost) (owns : Owns s) (found : s.callers[t]? = some c) (free : c.holds = none)
    {sock : SOCKET} (unused : s.host.isOpen sock = false) (holds : c'.holds = some sock) :
    Spent base ({s with host := s.host.openFD sock}.setCaller t c') lost := by
  have shut : ¬ s.host.table.isOpen sock = true := (Bool.not_eq_true _).mpr unused
  have held (fd : SOCKET) : Holds ({s with host := s.host.openFD sock}.setCaller t c') fd ↔ sock = fd ∨ s.Holds fd := by
    refine (holds_set_iff owns found fd).trans ?_
    simp [holds,free]
  have other {fd : FD} (opened : s.host.table.isOpen fd = true) : fd ≠ sock := by
    rintro rfl
    exact shut opened
  have isOpen {fd : FD} (differs : fd ≠ sock) : (s.host.openFD sock).isOpen fd = s.host.isOpen fd := Function.update_of_ne differs _ _
  refine ⟨fun fd now => ?_,fun fd member => ?_,fun fd mine => ?_⟩
  · by_cases new : fd = sock
    · exact .inr (.inr (.inl ((held fd).mpr (.inl new.symm))))
    · exact (spent.opened fd ((isOpen new).symm.trans now)).imp_right (Or.imp_right (Or.imp_left (fun held' => (held fd).mpr (.inr held'))))
  · obtain ⟨fresh,opened,free,closed⟩ := spent.lost fd member
    have differs := other opened
    refine ⟨fresh,(isOpen differs).trans opened,fun now => ?_,closed⟩
    exact ((held fd).mp now).elim (fun new => differs new.symm) free
  · obtain ⟨opened,missing,free⟩ := spent.theirs fd mine
    have differs := other opened
    refine ⟨(isOpen differs).trans opened,missing,fun now => ?_⟩
    exact ((held fd).mp now).elim (fun new => differs new.symm) free

theorem Spent.gives (spent : s.Spent base lost) (owns : Owns s) (found : s.callers[t]? = some c) {sock : SOCKET}
    (holds : c.holds = some sock) (free : c'.holds = none) : Spent base (s.setCaller t c') (lost ++ [sock]) := by
  have mine : s.Holds sock := ⟨c,List.mem_of_getElem? found,holds⟩
  have held (fd : SOCKET) : Holds (s.setCaller t c') fd ↔ s.Holds fd ∧ fd ≠ sock :=
    holds_given owns found holds free fd
  refine ⟨fun fd now => ?_,fun fd member => ?_,fun fd theirs => ?_⟩
  · refine (spent.opened fd now).imp_right (Or.imp_right (fun rest => ?_))
    by_cases given : fd = sock
    · exact .inr (by simp [given])
    · exact rest.imp (fun held' => (held fd).mpr ⟨held',given⟩) (fun member => List.mem_append_left _ member)
  · rcases List.mem_append.mp member with old | new
    · obtain ⟨fresh,opened,away,closed⟩ := spent.lost fd old
      exact ⟨fresh,opened,fun now => away ((held fd).mp now).1,closed⟩
    · obtain rfl := List.mem_singleton.mp new
      have fresh : base fd = false := (Bool.not_eq_true _).mp (fun theirs => (spent.theirs fd theirs).2.2 mine)
      obtain ⟨opened,closed⟩ := owns.owned.held fd mine
      exact ⟨fresh,opened,fun now => ((held fd).mp now).2 rfl,closed⟩
  · obtain ⟨opened,missing,away⟩ := spent.theirs fd theirs
    exact ⟨opened,missing,fun now => away ((held fd).mp now).1⟩

theorem Spent.closes (spent : s.Spent base lost) (owns : Owns s) (found : s.callers[t]? = some c) {sock : SOCKET}
    (holds : c.holds = some sock) (free : c'.holds = none) :
    Spent base ({s with host := s.host.closeFD sock}.setCaller t c') lost := by
  have mine : s.Holds sock := ⟨c,List.mem_of_getElem? found,holds⟩
  have held (fd : SOCKET) : Holds ({s with host := s.host.closeFD sock}.setCaller t c') fd ↔ s.Holds fd ∧ fd ≠ sock :=
    holds_given owns found holds free fd
  have find : (s.host.closeFD sock).table.find = s.host.table.find := by
    unfold Host.table Host.findSocketObject
    simp
  have still {fd : FD} (other : fd ≠ sock) : (s.host.closeFD sock).table.isOpen fd = s.host.table.isOpen fd :=
    (congrFun (s.host.isOpen_closeFD sock) fd).trans (Function.update_of_ne other _ _)
  refine ⟨fun fd now => ?_,fun fd member => ?_,fun fd theirs => ?_⟩
  · have other : fd ≠ sock := by
      rintro rfl
      have shut : (s.host.closeFD fd).isOpen fd = false := by rw [Host.isOpen_closeFD,Function.update_self]
      exact absurd (shut.symm.trans now) (by simp)
    have before := spent.opened fd ((still other).symm.trans now)
    refine before.imp_right (Or.imp (fun entry => ⟨(congrArg Option.isSome (congrFun find fd)).trans entry.1,entry.2⟩)
      (Or.imp_left (fun held' => (held fd).mpr ⟨held',other⟩)))
  · obtain ⟨fresh,opened,away,closed⟩ := spent.lost fd member
    have other : fd ≠ sock := fun same => away (same ▸ mine)
    exact ⟨fresh,(still other).trans opened,fun now => away ((held fd).mp now).1,
      fun now => closed ((congrArg Option.isSome (congrFun find fd)).symm.trans now)⟩
  · obtain ⟨opened,missing,away⟩ := spent.theirs fd theirs
    have other : fd ≠ sock := fun same => away (same ▸ mine)
    exact ⟨(still other).trans opened,(congrFun find fd).trans missing,fun now => away ((held fd).mp now).1⟩

theorem Spent.enters (spent : s.Spent base lost) (owns : Owns s) (inv : Inv s) (found : s.callers[t]? = some c) {sock : SOCKET} (p : Ptr)
    (missing : s.host.table.find sock = none) (holds : c.holds = some sock) (free : c'.holds = none) :
    Spent base ({s with host := s.host.insertSocketObject sock p}.setCaller t c') lost := by
  have mine : s.Holds sock := ⟨c,List.mem_of_getElem? found,holds⟩
  have held (fd : SOCKET) : Holds ({s with host := s.host.insertSocketObject sock p}.setCaller t c') fd ↔ s.Holds fd ∧ fd ≠ sock :=
    holds_given owns found holds free fd
  have table := s.host.table_insertSocketObject sock p
  have find : (s.host.insertSocketObject sock p).table.find = Function.update s.host.table.find sock (some p) := by
    rw [table]
    simp [missing]
  have isOpen : (s.host.insertSocketObject sock p).table.isOpen = s.host.table.isOpen := by rw [table]; rfl
  have others {fd : FD} (other : fd ≠ sock) : (s.host.insertSocketObject sock p).table.find fd = s.host.table.find fd := by
    rw [find,Function.update_of_ne other]
  have settled : s.worker.role.closing sock = false := by
    rw [Bool.eq_false_iff]
    intro closing
    obtain ⟨stage,q,role⟩ : ∃ stage q, s.worker.role = .removing stage q sock := by
      unfold Role.closing at closing
      split at closing
      · rename_i q k role
        exact ⟨_,q,(of_decide_eq_true closing) ▸ role⟩
      · rename_i q k role
        exact ⟨_,q,(of_decide_eq_true closing) ▸ role⟩
      · cases closing
    have entered : s.host.table.find sock = some q := inv.entered.removing stage q sock role
    simp [missing] at entered
  refine ⟨fun fd now => ?_,fun fd member => ?_,fun fd theirs => ?_⟩
  · by_cases new : fd = sock
    · subst new
      exact .inr (.inl ⟨by simp [setCaller,find],settled⟩)
    · have before := spent.opened fd ((congrFun isOpen fd).symm.trans now)
      exact before.imp_right (Or.imp (fun entry => ⟨(congrArg Option.isSome (others new)).trans entry.1,entry.2⟩)
        (Or.imp_left (fun held' => (held fd).mpr ⟨held',new⟩)))
  · obtain ⟨fresh,opened,away,closed⟩ := spent.lost fd member
    have other : fd ≠ sock := fun same => away (same ▸ mine)
    exact ⟨fresh,(congrFun isOpen fd).trans opened,fun now => away ((held fd).mp now).1,
      fun now => closed ((congrArg Option.isSome (others other)).symm.trans now)⟩
  · obtain ⟨opened,absent,away⟩ := spent.theirs fd theirs
    have other : fd ≠ sock := fun same => away (same ▸ mine)
    exact ⟨(congrFun isOpen fd).trans opened,(others other).trans absent,fun now => away ((held fd).mp now).1⟩

theorem Spent.call (spent : s.Spent base lost) (owns : Owns s) (inv : Inv s) (keyed : s.view.Keyed) (working : s.worker ≠ .exited)
    (found : s.callers[t]? = some c) {reply : Reply} {host : Host}
    (fails : ∀ addr sock code, c = .connect .asynchConnectTo addr sock → reply = .failed code → c' = .idle)
    (call : CallStep s.host s.worker c reply host c') :
    Spent base ({s with host := host}.setCaller t c') (lost ++ s.givenUp (.caller t reply)) := by
  have member := List.mem_of_getElem? found
  have unstopped (joined : c.joined = true) : False := working (inv.control.joined c member joined)
  have goes {host : Host} (table : host.table = s.host.table) (same : c'.holds = c.holds) (none_given : s.givenUp (.caller t reply) = []) :
      Spent base ({s with host := host}.setCaller t c') (lost ++ s.givenUp (.caller t reply)) := by
    rw [none_given,List.append_nil]
    exact spent.goes owns found same (congrArg Table.find table) (congrArg Table.isOpen table)
  cases call with
  | push cmd fd next started => exact goes rfl rfl (by simp [givenUp,found])
  | notStarted cmd fd next stopped => exact goes rfl rfl (by simp [givenUp,found])
  | evtWrite next =>
    have same : s.host.writeCmdEvt.table = s.host.table := by
      unfold Host.writeCmdEvt
      split <;> rfl
    exact goes same rfl (by simp [givenUp,found])
  | closedAll last => exact goes rfl rfl (by simp [givenUp,found])
  | closeOne last sock p object at_sock live valid => exact goes rfl rfl (by simp [givenUp,found])
  | closeNone last sock => exact goes rfl rfl (by simp [givenUp,found])
  | noSocket op addr code => exact goes rfl rfl (by simp [givenUp,found])
  | socket op addr sock nonneg unused =>
    rw [show s.givenUp _ = [] by simp [givenUp,found],List.append_nil]
    exact spent.opens owns found rfl unused rfl
  | connected op addr sock raw now from_addr =>
    have table := s.host.table_prepareObject raw from_addr (some now)
    have same : (Caller.count sock (s.host.prepareObject raw from_addr (some now)).1 true).holds = some sock := rfl
    rw [show s.givenUp _ = [] by simp [givenUp,found],List.append_nil]
    exact spent.goes owns found same (by rw [table]; rfl) (by rw [table]; rfl)
  | inProgress addr sock raw =>
    have table := s.host.table_prepareObject raw (some addr) none
    have same : (Caller.count sock (s.host.prepareObject raw (some addr) none).1 false).holds = some sock := rfl
    rw [show s.givenUp _ = [] by simp [givenUp,found],List.append_nil]
    exact spent.goes owns found same (by rw [table]; rfl) (by rw [table]; rfl)
  | leaked addr sock code =>
    rw [show s.givenUp _ = [sock] by simp [givenUp,found]]
    exact spent.gives owns found rfl rfl
  | refused op addr sock code =>
    refine goes rfl rfl ?_
    cases op with
    | asynchConnectTo => cases fails addr sock code rfl rfl
    | connectToRemote => simp [givenUp,found]
    | addUdpSocket => simp [givenUp,found]
  | present sock p notify at_sock =>
    rw [show s.givenUp _ = [sock] by simp [givenUp,found,at_sock]]
    exact spent.gives owns found rfl (by simp)
  | absent sock p notify missing =>
    exact goes rfl rfl (by simp only [givenUp,found]; exact if_neg missing)
  | insert sock p notify =>
    have missing : s.host.table.find sock = none := keyed.absent sock p notify (List.mem_map.mpr ⟨_,member,rfl⟩)
    rw [show s.givenUp _ = [] by simp [givenUp,found],List.append_nil]
    exact spent.enters owns inv found p missing rfl rfl
  | addFD sock p notify reply refused =>
    obtain ⟨registered,table,_⟩ := s.host.table_addFD sock p refused
    rw [show s.givenUp _ = [] by simp [givenUp,found],List.append_nil]
    have find := congrArg Table.find table
    have isOpen := congrArg Table.isOpen table
    exact spent.goes owns found (by simp [Caller.holds]) find isOpen
  | onConnect sock p =>
    rw [show s.givenUp _ = [] by simp [givenUp,found],List.append_nil]
    exact spent.goes owns found (by rfl) rfl rfl
  | closeSock sock =>
    rw [show s.givenUp _ = [] by simp [givenUp,found],List.append_nil]
    exact spent.closes owns found rfl rfl
  | closeListenSocket => exact absurd rfl (owns.listens _ member)
  | signal => exact goes rfl rfl (by simp [givenUp,found])
  | join exited => exact absurd exited working
  | clear => exact (unstopped rfl).elim
  | release => exact (unstopped rfl).elim
  | closeFds => exact (unstopped rfl).elim

theorem Spent.step {act : Act} (spent : s.Spent base lost) (owns : Owns s) (inv : Inv s) (keyed : s.view.Keyed)
    (kind : s.host.kind ≠ .tcpServer) (working : s.worker ≠ .exited) (taken : s.step act = some next) :
    next.Spent base (lost ++ s.givenUp act) := by
  have silent (none_given : s.givenUp act = []) (kept : next.Spent base lost) : next.Spent base (lost ++ s.givenUp act) := by
    rwa [none_given,List.append_nil]
  cases step_taken taken with
  | arrive conn server listening => exact absurd server kind
  | startAccept refused server => exact absurd server kind
  | sendRefused act sends => exact silent (by cases act <;> simp_all [message,givenUp]) spent
  | sent act t sock addr raw buf p object sends which idle found live valid room =>
    have table := s.host.table_push live raw buf addr addr
    exact silent (by cases act <;> simp_all [message,givenUp])
      (spent.goes owns idle (by rfl) (congrArg Table.find table) (congrArg Table.isOpen table))
  | disconnect t sock idle => exact silent rfl (spent.goes owns idle (by rfl) rfl rfl)
  | limitIgnored sock num => exact silent rfl spent
  | limitSet sock num p change away found which => exact silent rfl (spent.turn rfl rfl (fun _ => rfl) (fun _ => .rfl))
  | connect t op addr idle offered => exact silent rfl (spent.goes owns idle (by rfl) rfl rfl)
  | stop t idle outside first =>
    refine silent rfl (spent.goes owns idle ?_ rfl rfl)
    cases s.host.kind <;> rfl
  | caller t c reply host later found may call =>
    refine spent.call owns inv keyed working found (fun addr sock code at_connect failed => ?_) call
    subst at_connect failed
    have later := taken
    simp only [step,found,Option.bind_some,if_pos may,callerStep,connectStep] at later
    split at later
    · cases later
    · have same := congrArg (fun s => s.callers[t]?) (Option.some.inj later)
      have bound := (List.getElem?_eq_some_iff.mp found).1
      simpa [setCaller,bound,eq_comm] using same
  | worker act host worker idle move =>
    have none_given : s.givenUp act = [] := by
      have works := move.works
      cases act <;> simp_all [Act.works,givenUp]
    exact silent none_given ((move.view []).spent rfl owns.owned.serving inv.entered.removing spent)

section sockets

variable {config : Config} {acts : List Act}

theorem run_spent (run : Run config acts s) (kind : config.kind ≠ .tcpServer) (working : s.worker ≠ .exited) :
    s.Spent config.isOpen (Transition.trace Sys.step givenUp config.started acts) := by
  refine Transition.exec_induction (I := fun acts (s : Sys) => s.worker ≠ .exited →
    s.Spent config.isOpen (Transition.trace Sys.step givenUp config.started acts)) (fun _ => started_spent config)
    (fun acts s act next run spent taken working => ?_) run working
  rw [Transition.trace_snoc run]
  have working := step_working taken working
  have tcp : s.host.kind ≠ .tcpServer := by rwa [run_kind run]
  exact (spent working).step (run_owns run tcp working) (run_inv run) (run_keyed run kind working) tcp working taken

end sockets

end Sys

end LightServer
