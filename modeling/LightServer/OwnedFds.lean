import LightServer.StopSteps

/-! Who owns the sockets of a `TcpClient` or a `UdpServer`: an entry of the map, or the one thread that
has opened the socket and not entered it yet. -/
namespace LightServer

/-- The socket that a thread has opened and not entered in the map. -/
def Caller.holds : Caller → Option SOCKET
  | .trigger _ _ next | .evtWrite next => next.holds
  | .connect _ _ sock | .closeSock sock | .count sock _ _ | .insert sock _ _ => some sock
  | _ => none

@[simp] theorem holds_afterAdd (notify : Bool) (sock : SOCKET) (p : Ptr) : (Sys.afterAdd notify sock p).holds = none := by
  cases notify <;> rfl

/-- The removal has closed the socket and not erased its entry. -/
def Role.closing (sock : SOCKET) : Role → Bool
  | .removing .delete _ k | .removing .erase _ k => k = sock
  | _ => false

namespace Table

/-- Sockets that are held or in the map are open, but for the one that is being removed. -/
structure Owned (T : Table) (role : Role) (held : SOCKET → Prop) : Prop where
  serving : role ≠ .accepting ∧ ∀ sock, role ≠ .holding sock
  held : ∀ sock, held sock → T.isOpen sock = true ∧ ((T.find sock).isSome → role.closing sock = true)
  keys : ∀ sock, (T.find sock).isSome → T.isOpen sock = true ∨ role.closing sock = true

variable {T T' : Table} {role role' : Role} {held : SOCKET → Prop}

theorem Owned.turn (owned : T.Owned role held) (find : T'.find = T.find) (isOpen : T'.isOpen = T.isOpen)
    (serving : role' ≠ .accepting ∧ ∀ sock, role' ≠ .holding sock)
    (closing : ∀ sock, role.closing sock = true → role'.closing sock = true) : T'.Owned role' held := by
  refine ⟨serving,fun sock held => ?_,fun sock found => ?_⟩
  · rw [find,isOpen]
    exact (owned.held sock held).imp_right (fun closed found => closing sock (closed found))
  · rw [find] at found
    rw [isOpen]
    exact (owned.keys sock found).imp_right (closing sock)

/-- The worker closes the socket of an entry and no other. -/
theorem Work.owned (work : Work T role T' role') (kind : T.kind ≠ .tcpServer)
    (removing : ∀ stage p sock, role = .removing stage p sock → T.find sock = some p) (owned : T.Owned role held) :
    T'.Owned role' held := by
  cases work with
  | rest _ _ settled later =>
    have idle (sock : SOCKET) : role.closing sock ≠ true := by
      cases role <;> simp_all [Role.closing,Role.settled]
    refine owned.turn rfl rfl ?_ (fun sock now => absurd now (idle sock))
    rcases later with rfl | rfl | ⟨p,sock,_,rfl⟩
    · exact owned.serving
    · simp
    · simp
  | handle p ready => exact owned.turn rfl rfl (by simp) (by simp [Role.closing])
  | connect p sock _ _ core later =>
    refine owned.turn rfl rfl ?_ (by simp [Role.closing])
    rcases later with rfl | rfl <;> simp
  | startRead p sock connected core => exact owned.turn rfl rfl (by simp) (by simp [Role.closing])
  | doRead p sock => exact owned.turn rfl rfl (by simp) (by simp [Role.closing])
  | listen server => exact absurd server kind
  | accept sock nonneg unused listening => exact absurd rfl owned.serving.1
  | add sock registered absent registers => exact absurd rfl (owned.serving.2 sock)
  | leak sock core present => exact absurd rfl (owned.serving.2 sock)
  | closeAccepted sock => exact absurd rfl (owned.serving.2 sock)
  | announce p sock => exact owned.turn rfl rfl (by simp) (by simp [Role.closing])
  | disconnect fd p sock connected found core => exact owned.turn rfl rfl (by simp) (by simp [Role.closing])
  | removeFD p sock => exact owned.turn rfl rfl (by simp) (by simp [Role.closing])
  | removeClose p sock =>
    have found : (T.find sock).isSome = true := by simp [removing .close p sock rfl]
    have same : (T.closeFD sock).find = T.find := by
      obtain ⟨_,_,closed,_⟩ := T.closes_closeFD sock
      rw [closed]
    refine ⟨by simp,fun k held => ?_,fun k entered => ?_⟩
    · obtain ⟨opened,closed⟩ := owned.held k held
      have differs : k ≠ sock := by
        rintro rfl
        simpa [Role.closing] using closed found
      rw [same,isOpen_closeFD,Function.update_of_ne differs]
      exact ⟨opened,fun entered => absurd (closed entered) (by simp [Role.closing])⟩
    · by_cases at_sock : k = sock
      · exact .inr (by simp [Role.closing,at_sock])
      · rw [isOpen_closeFD,Function.update_of_ne at_sock]
        rw [same] at entered
        exact .inl ((owned.keys k entered).resolve_right (by simp [Role.closing]))
  | removeDelete p sock => exact owned.turn rfl rfl (by simp) (fun k => id)
  | removeErase p sock =>
    have entered {k : SOCKET} (now : (Function.update T.find sock none k).isSome = true) : (T.find k).isSome = true ∧ k ≠ sock := by
      by_cases at_sock : k = sock
      · simp [at_sock] at now
      · exact ⟨by simpa [at_sock] using now,at_sock⟩
    refine ⟨by simp,fun k held => ⟨(owned.held k held).1,fun now => ?_⟩,fun k now => .inl ?_⟩
    · obtain ⟨before,differs⟩ := entered now
      exact absurd ((owned.held k held).2 before) (by simpa [Role.closing] using Ne.symm differs)
    · obtain ⟨before,differs⟩ := entered now
      exact (owned.keys k before).resolve_right (by simpa [Role.closing] using Ne.symm differs)

end Table

theorem View.Step.owned {v v' : View} {held : SOCKET → Prop} (step : View.Step v v') (alone : v.tasks = [])
    (kind : v.table.kind ≠ .tcpServer) (removing : ∀ stage p sock, v.role = .removing stage p sock → v.table.find sock = some p)
    (owned : v.table.Owned v.role held) : v'.table.Owned v'.role held := by
  cases step with
  | stutter => exact owned
  | deliver T pending tasks told => exact owned
  | event T p pending tasks => exact owned.turn rfl rfl (by simp) (by simp [Role.closing])
  | command T fd p pending tasks found => exact owned.turn rfl rfl (by simp) (by simp [Role.closing])
  | exit T tasks => exact owned
  | work T role pending tasks T' role' work => exact work.owned kind removing owned
  | call T role pending exited tasks t task T' task' found call => simp [show tasks = [] from alone] at found

namespace Sys

variable {s next : Sys} {act : Act}

/-- Each socket that has an owner has one: an entry of the map or a thread. -/
structure Owns (s : Sys) : Prop where
  owned : s.host.table.Owned s.worker.role (fun sock => ∃ c ∈ s.callers, c.holds = some sock)
  alone : ∀ (t t' : Nat) (c c' : Caller) (sock : SOCKET), s.callers[t]? = some c → s.callers[t']? = some c' →
    c.holds = some sock → c'.holds = some sock → t = t'
  listens : ∀ c ∈ s.callers, c.progress ≠ 1

theorem started_owns (config : Config) : Owns config.started := by
  have idle (c) (member : c ∈ config.started.callers) : c = .idle := by
    simp only [Config.started,List.mem_replicate] at member
    exact member.2
  refine ⟨⟨by simp [Config.started,Worker.role],?_,?_⟩,fun t t' c c' sock found _ holds _ => ?_,fun c member => ?_⟩
  · rintro sock ⟨c,member,holds⟩
    simp [idle c member,Caller.holds] at holds
  · simp [Host.table,Config.started,Host.findSocketObject]
  · simp [idle c (List.mem_of_getElem? found),Caller.holds] at holds
  · simp [idle c member,Caller.progress]

section callers

variable {t : Nat} {c c' : Caller} {callers : List Caller}

theorem holds_set (found : callers[t]? = some c) {sock : SOCKET} (held : ∃ d ∈ callers.set t c', d.holds = some sock) :
    c'.holds = some sock ∨ ∃ u d, u ≠ t ∧ callers[u]? = some d ∧ d.holds = some sock := by
  obtain ⟨d,member,holds⟩ := held
  rcases mem_of_set found member with rfl | ⟨u,differs,at_u⟩
  · exact .inl holds
  · exact .inr ⟨u,d,differs,at_u,holds⟩

theorem Owns.alone_set (owns : Owns s) (found : s.callers[t]? = some c)
    (holds : ∀ sock, c'.holds = some sock → c.holds = some sock ∨ ∀ d ∈ s.callers, d.holds ≠ some sock) :
    ∀ (u u' : Nat) (d d' : Caller) (sock : SOCKET), (s.callers.set t c')[u]? = some d → (s.callers.set t c')[u']? = some d' →
      d.holds = some sock → d'.holds = some sock → u = u' := by
  have other {u : Nat} {d : Caller} {sock : SOCKET} (differs : u ≠ t) (at_u : s.callers[u]? = some d)
      (mine : c'.holds = some sock) (held : d.holds = some sock) : False := by
    rcases holds sock mine with old | none
    · exact differs (owns.alone u t d c sock at_u found held old)
    · exact none d (List.mem_of_getElem? at_u) held
  intro u u' d d' sock at_u at_u' held held'
  rcases getElem?_of_set found at_u with ⟨rfl,rfl⟩ | ⟨differs,was⟩ <;>
    rcases getElem?_of_set found at_u' with ⟨rfl,rfl⟩ | ⟨differs',was'⟩
  · rfl
  · exact (other differs' was' held held').elim
  · exact (other differs was held' held).elim
  · exact owns.alone u u' d d' sock was was' held held'

theorem listens_set (listens : ∀ d ∈ callers, d.progress ≠ 1) (low : c'.progress ≠ 1) : ∀ d ∈ callers.set t c', d.progress ≠ 1 := by
  intro d member
  rcases List.mem_or_eq_of_mem_set member with old | rfl
  · exact listens d old
  · exact low

/-- A thread goes on that opens, closes and enters nothing. -/
theorem Owns.goes (owns : Owns s) (found : s.callers[t]? = some c) {host : Host} {stopCalled : Bool}
    (find : host.table.find = s.host.table.find) (isOpen : host.table.isOpen = s.host.table.isOpen)
    (holds : ∀ sock, c'.holds = some sock → c.holds = some sock) (low : c'.progress ≠ 1) :
    Owns ⟨host,s.worker,s.callers.set t c',stopCalled⟩ := by
  have member := List.mem_of_getElem? found
  have turned : host.table.Owned s.worker.role (fun sock => ∃ c ∈ s.callers, c.holds = some sock) :=
    owns.owned.turn find isOpen owns.owned.serving (fun _ => id)
  refine ⟨⟨turned.serving,fun sock held => turned.held sock ?_,turned.keys⟩,
    owns.alone_set found (fun sock now => .inl (holds sock now)),listens_set owns.listens low⟩
  rcases holds_set found held with mine | ⟨u,d,_,at_u,held⟩
  · exact ⟨c,member,holds sock mine⟩
  · exact ⟨d,List.mem_of_getElem? at_u,held⟩

/-- What is held when a thread has given its socket up. -/
theorem Owns.still_held (owns : Owns s) (found : s.callers[t]? = some c) {sock k : SOCKET} (holds : c.holds = some sock)
    (gives : c'.holds = none) (held : ∃ d ∈ s.callers.set t c', d.holds = some k) :
    k ≠ sock ∧ ∃ d ∈ s.callers, d.holds = some k := by
  obtain ⟨u,d,differs,at_u,held⟩ := (holds_set found held).resolve_left (by simp [gives])
  refine ⟨?_,d,List.mem_of_getElem? at_u,held⟩
  rintro rfl
  exact differs (owns.alone u t d c k at_u found held holds)

/-- `socket` gives a number that nobody holds and no entry has. -/
theorem Owns.opens (owns : Owns s) (found : s.callers[t]? = some c) {sock : SOCKET} (unused : s.host.isOpen sock = false)
    (holds : c'.holds = some sock) (low : c'.progress ≠ 1) : Owns ({s with host := s.host.openFD sock}.setCaller t c') := by
  have shut : ¬ s.host.table.isOpen sock = true := (Bool.not_eq_true _).mpr unused
  have idle (d) (listed : d ∈ s.callers) : d.holds ≠ some sock := fun holds => shut (owns.owned.held sock ⟨d,listed,holds⟩).1
  have opened {k : SOCKET} (now : s.host.isOpen k = true) : (s.host.openFD sock).isOpen k = true := by
    by_cases same : k = sock <;> simp [Host.openFD,same,now]
  refine ⟨⟨owns.owned.serving,fun k held => ?_,fun k entered => (owns.owned.keys k entered).imp_left opened⟩,
    owns.alone_set found (fun k mine => .inr ?_),listens_set owns.listens low⟩
  · rcases holds_set found held with mine | ⟨u,d,_,at_u,held⟩
    · obtain rfl : sock = k := Option.some.inj (holds.symm.trans mine)
      refine ⟨by simp [setCaller,Host.table,Host.openFD],fun entered => ?_⟩
      exact (owns.owned.keys sock entered).resolve_left shut
    · obtain ⟨before,closed⟩ := owns.owned.held k ⟨d,List.mem_of_getElem? at_u,held⟩
      exact ⟨opened before,closed⟩
  · obtain rfl : sock = k := Option.some.inj (holds.symm.trans mine)
    exact idle

/-- `AddSocketObject` hands the socket to the map. -/
theorem Owns.enters (owns : Owns s) (found : s.callers[t]? = some c) {sock : SOCKET} (p : Ptr) (holds : c.holds = some sock)
    (gives : c'.holds = none) (low : c'.progress ≠ 1) : Owns ({s with host := s.host.insertSocketObject sock p}.setCaller t c') := by
  have table := s.host.table_insertSocketObject sock p
  have isOpen := congrArg Table.isOpen table
  have entered {k : SOCKET} (now : ((s.host.insertSocketObject sock p).table.find k).isSome = true) :
      k = sock ∨ (s.host.table.find k).isSome = true := by
    rw [table] at now
    by_cases same : k = sock
    · exact .inl same
    · dsimp only at now
      split at now
      · exact .inr now
      · exact .inr (by simpa [same] using now)
  refine ⟨⟨owns.owned.serving,fun k held => ?_,fun k now => ?_⟩,owns.alone_set found (by simp [gives]),
    listens_set owns.listens low⟩
  · obtain ⟨other,held⟩ := owns.still_held found holds gives held
    obtain ⟨before,closed⟩ := owns.owned.held k held
    exact ⟨isOpen ▸ before,fun now => closed ((entered now).resolve_left other)⟩
  · rcases entered now with rfl | before
    · exact .inl (isOpen ▸ (owns.owned.held k ⟨c,List.mem_of_getElem? found,holds⟩).1)
    · exact (owns.owned.keys k before).imp_left (fun now => isOpen ▸ now)

theorem Owns.closes (owns : Owns s) (found : s.callers[t]? = some c) {sock : SOCKET} (holds : c.holds = some sock)
    (gives : c'.holds = none) (low : c'.progress ≠ 1) : Owns ({s with host := s.host.closeFD sock}.setCaller t c') := by
  have find : (s.host.closeFD sock).table.find = s.host.table.find := by
    unfold Host.table Host.findSocketObject
    simp
  have isOpen : (s.host.closeFD sock).table.isOpen = Function.update s.host.table.isOpen sock false := s.host.isOpen_closeFD sock
  have still {k : SOCKET} (other : k ≠ sock) (before : s.host.table.isOpen k = true) : (s.host.closeFD sock).table.isOpen k = true :=
    (congrFun isOpen k).trans ((Function.update_of_ne other _ _).trans before)
  refine ⟨⟨owns.owned.serving,fun k held => ?_,fun k now => ?_⟩,owns.alone_set found (by simp [gives]),
    listens_set owns.listens low⟩
  · obtain ⟨other,held⟩ := owns.still_held found holds gives held
    obtain ⟨before,closed⟩ := owns.owned.held k held
    exact ⟨still other before,fun now => closed (find ▸ now)⟩
  · have entered : (s.host.table.find k).isSome = true := find ▸ now
    by_cases same : k = sock
    · subst same
      exact .inr ((owns.owned.held k ⟨c,List.mem_of_getElem? found,holds⟩).2 entered)
    · exact (owns.owned.keys k entered).imp_left (still same)

/-- A thread that is not the one inside `Stop` goes on. -/
private theorem Owns.call (owns : Owns s) (working : s.worker ≠ .exited) (control : Control s) (found : s.callers[t]? = some c)
    {reply : Reply} {host : Host} (call : CallStep s.host s.worker c reply host c') :
    Owns ({s with host := host}.setCaller t c') := by
  have member := List.mem_of_getElem? found
  have goes {host : Host} (table : host.table = s.host.table) (holds : ∀ sock, c'.holds = some sock → c.holds = some sock)
      (low : c'.progress ≠ 1) : Owns ({s with host := host}.setCaller t c') :=
    owns.goes found (congrArg Table.find table) (congrArg Table.isOpen table) holds low
  have below := owns.listens c member
  have unstopped (joined : c.joined = true) : False := working (control.joined c member joined)
  cases call with
  | push cmd fd next started => exact goes rfl (fun _ => id) below
  | notStarted cmd fd next stopped => exact goes rfl (fun _ => id) below
  | evtWrite next =>
    have same : s.host.writeCmdEvt.table = s.host.table := by
      unfold Host.writeCmdEvt
      split <;> rfl
    exact goes same (fun _ => id) below
  | closedAll last => exact goes rfl (by simp [Caller.holds]) (by simp [Caller.progress])
  | closeOne last sock p object at_sock live valid => exact goes rfl (by simp [Caller.holds]) (by simp [Caller.progress])
  | closeNone last sock => exact goes rfl (by simp [Caller.holds]) (by simp [Caller.progress])
  | noSocket op addr code => exact goes rfl (by simp [Caller.holds]) (by simp [Caller.progress])
  | socket op addr sock nonneg unused => exact owns.opens found unused rfl (by simp [Caller.progress])
  | connected op addr sock raw now from_addr =>
    have table := s.host.table_prepareObject raw from_addr (some now)
    have find := congrArg Table.find table
    have isOpen := congrArg Table.isOpen table
    exact owns.goes found find isOpen (fun _ => id) (by simp [Caller.progress])
  | inProgress addr sock raw =>
    have table := s.host.table_prepareObject raw (some addr) none
    have find := congrArg Table.find table
    have isOpen := congrArg Table.isOpen table
    exact owns.goes found find isOpen (fun _ => id) (by simp [Caller.progress])
  | leaked addr sock code => exact goes rfl (by simp [Caller.holds]) (by simp [Caller.progress])
  | refused op addr sock code => exact goes rfl (fun _ => id) (by simp [Caller.progress])
  | present sock p notify at_sock => exact goes rfl (by simp) (by simp)
  | absent sock p notify missing => exact goes rfl (fun _ => id) (by simp [Caller.progress])
  | insert sock p notify => exact owns.enters found p rfl rfl (by simp [Caller.progress])
  | addFD sock p notify reply refused =>
    obtain ⟨registered,table,_⟩ := s.host.table_addFD sock p refused
    have find := congrArg Table.find table
    have isOpen := congrArg Table.isOpen table
    exact owns.goes found find isOpen (by simp) (by simp)
  | onConnect sock p => exact owns.goes found rfl rfl (by simp [Caller.holds]) (by simp [Caller.progress])
  | closeSock sock => exact owns.closes found rfl rfl (by simp [Caller.progress])
  | closeListenSocket => exact absurd rfl below
  | signal => exact goes rfl (by simp [Caller.holds]) (by simp [Caller.progress])
  | join exited => exact absurd exited working
  | clear => exact (unstopped rfl).elim
  | release => exact (unstopped rfl).elim
  | closeFds => exact (unstopped rfl).elim

end callers

theorem Owns.step (owns : Owns s) (inv : Inv s) (kind : s.host.kind ≠ .tcpServer) (working : s.worker ≠ .exited)
    (taken : s.step act = some next) : Owns next := by
  have same {host : Host} (find : host.table.find = s.host.table.find) (isOpen : host.table.isOpen = s.host.table.isOpen) :
      Owns {s with host := host} := ⟨owns.owned.turn find isOpen owns.owned.serving (fun _ => id),owns.alone,owns.listens⟩
  cases step_taken taken with
  | arrive conn server listening => exact absurd server kind
  | startAccept refused server => exact absurd server kind
  | sendRefused act sends => exact owns
  | sent act t sock addr raw buf p object sends which idle found live valid room =>
    have table := s.host.table_push live raw buf addr addr
    exact owns.goes idle (congrArg Table.find table) (congrArg Table.isOpen table) (by simp [Caller.holds]) (by simp [Caller.progress])
  | disconnect t sock idle => exact owns.goes idle rfl rfl (by simp [Caller.holds]) (by simp [Caller.progress])
  | limitIgnored sock num => exact owns
  | limitSet sock num p change away found which => exact same rfl rfl
  | connect t op addr idle offered => exact owns.goes idle rfl rfl (by simp [Caller.holds]) (by simp [Caller.progress])
  | stop t idle outside first =>
    refine owns.goes idle rfl rfl ?_ ?_
    · cases s.host.kind <;> simp [firstStopStage,Caller.holds]
    · cases which : s.host.kind <;> simp [firstStopStage,Caller.progress,which] at kind ⊢
  | caller t c reply host later found may call => exact owns.call working inv.control found call
  | worker act host worker idle move =>
    exact ⟨(move.view []).owned rfl kind inv.entered.removing owns.owned,owns.alone,owns.listens⟩

/-- A worker that is at work has been at work all along. -/
theorem working_step (taken : s.step act = some next) (working : next.worker ≠ .exited) : s.worker ≠ .exited := by
  cases step_taken taken with
  | worker act host worker idle move => exact move.working
  | _ => exact working

theorem run_owns {config : Config} {acts : List Act} (run : Run config acts s) (kind : s.host.kind ≠ .tcpServer)
    (working : s.worker ≠ .exited) : Owns s := by
  have kept (s : Sys) (act : Act) (next : Sys) (owns : Inv s ∧ (s.host.kind ≠ .tcpServer → s.worker ≠ .exited → Owns s))
      (taken : s.step act = some next) : Inv next ∧ (next.host.kind ≠ .tcpServer → next.worker ≠ .exited → Owns next) := by
    refine ⟨owns.1.step taken,fun kind working => ?_⟩
    rw [owns.1.kind taken] at kind
    have working := working_step taken working
    exact (owns.2 kind working).step owns.1 kind working taken
  exact (Transition.exec_invariant_free kept ⟨started_inv config,fun _ _ => started_owns config⟩ run).2 kind working

end Sys

end LightServer
