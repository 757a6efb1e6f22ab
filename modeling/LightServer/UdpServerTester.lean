import LightServer.Listeners
import LightServer.OwnedConnections

/-! `UdpServerTester`: a `UdpServer` with two sockets that passes back what it receives on them. The worker
reads from a socket as soon as it is registered, and the member is set when `AddListenSocket` has returned. -/
namespace LightServer

/-- The address for `bind`, with the port and the number in network order. -/
def UdpServer.addListenSocket (ipv4 : UInt32) (port : UInt16) : Sockaddr :=
  [2,0,(port >>> 8).toUInt8,port.toUInt8,(ipv4 >>> 24).toUInt8,(ipv4 >>> 16).toUInt8,(ipv4 >>> 8).toUInt8,ipv4.toUInt8,
    0,0,0,0,0,0,0,0]

namespace Caller

/-- Inside `AddUdpSocket` or another connecting call. -/
def adds : Caller → Bool
  | .trigger _ _ next | .evtWrite next => next.adds
  | .idle | .closeAll _ | .stop _ => false
  | _ => true

/-- `OnConnect` is raised before the call returns a socket. -/
def notifies : Caller → Bool
  | .trigger _ _ next | .evtWrite next => next.notifies
  | .socket op _ | .connect op _ _ => op = .addUdpSocket
  | .count _ _ notify | .insert _ _ notify | .addFD _ _ notify => notify
  | _ => true

/-- The socket that the call enters in the map or has found there. -/
def adding : Caller → Option SOCKET
  | .trigger _ _ next | .evtWrite next => next.adding
  | .count sock _ _ | .insert sock _ _ | .addFD sock _ _ | .onConnect sock _ => some sock
  | _ => none

/-- What `AddUdpSocket` returns in a step. -/
def returned : Caller → Reply → Option SOCKET
  | .socket _ _, .failed _ => some (-1)
  | .closeSock _, .done => some (-1)
  | .onConnect sock _, .done => some sock
  | _, _ => none

end Caller

namespace UdpServerTester

def inaddrAny : UInt32 := 0
def udpServerTestPortA : UInt16 := 31092
def udpServerTestPortB : UInt16 := 31096

/-- `added` is the number of calls of `AddListenSocket` that have returned. -/
structure Members where
  listenSockA : SOCKET
  listenSockB : SOCKET
  added : Nat

namespace Members

/-- The port of the next `AddListenSocket` of `Start`. -/
def port (members : Members) : UInt16 := if members.added = 0 then udpServerTestPortA else udpServerTestPortB

def setListenSock (sock : SOCKET) (members : Members) : Members :=
  if members.added = 0 then {members with listenSockA := sock, added := 1}
  else {members with listenSockB := sock, added := members.added+1}

def Listens (sock : SOCKET) (members : Members) : Prop :=
  0 < members.added ∧ sock = members.listenSockA ∨ 1 < members.added ∧ sock = members.listenSockB

end Members

/-- `DoRead` calls `SendToA` or `SendToB`, and these call `Send`. -/
def doRead (members : Members) (sock : SOCKET) (from_addr : Option Sockaddr) (buf : List UInt8) : Option Message :=
  if sock = members.listenSockA then some (members.listenSockA,from_addr,buf)
  else if sock = members.listenSockB then some (members.listenSockB,from_addr,buf)
  else none

/-- Thread 1 is `main`: it calls `Start` and, when that has returned, `Stop`. -/
def listener : Listener Members where
  doRead := doRead
  calls members s act :=
    match act with
    | .connect t _ addr =>
      if t = 1 ∧ members.added < 2 ∧ addr = UdpServer.addListenSocket inaddrAny members.port then some members else none
    | .caller t reply =>
      if t = 1 then some (((s.callers[1]?).bind (fun c => c.returned reply)).elim members (fun sock => members.setListenSock sock))
      else some members
    | .stop t => if t = 1 ∧ members.added = 2 then some members else none
    | .disconnect _ _ | .setReceiveLimit _ _ => none
    | _ => some members

/-- The constructor leaves the two sockets as they are in memory. -/
def initial (config : Config) (listenSockA listenSockB : SOCKET) : App Members := ⟨config.started,⟨listenSockA,listenSockB,0⟩,none⟩

abbrev Run (config : Config) (listenSockA listenSockB : SOCKET) (acts : List Act) (app : App Members) : Prop :=
  App.Run listener config ⟨listenSockA,listenSockB,0⟩ acts app

/-- The answers of `DoRead` in the steps from a state on. -/
def answers (app : App Members) (acts : List Act) : List Answer := Transition.trace (App.step listener) App.answers app acts

end UdpServerTester

namespace Sys

theorem task_insert {c : Caller} {sock : SOCKET} {p : Ptr} {notify : Bool} (inserting : c.task = .inserting sock p notify) :
    c.adds = true ∧ c.adding = some sock := by
  induction c with
  | trigger cmd fd next ih => exact ih inserting
  | evtWrite next ih => exact ih inserting
  | insert k q n => exact ⟨rfl,by rw [Caller.adding,(Task.inserting.inj inserting).1]⟩
  | _ => simp [Caller.task] at inserting

theorem CallStep.adds {h h' : Host} {w : Worker} {c c' : Caller} {reply : Reply} (call : CallStep h w c reply h' c')
    (notifies : c.adds = true → c.notifies = true) :
    (c'.adds = true → c.adds = true ∧ c'.notifies = true) ∧
      (∀ sock, c.adding = some sock → c'.adding = some sock ∨ c.returned reply = some sock) ∧
      (c.returned reply ≠ none → c'.adds = false) := by
  cases call <;> simp_all [Caller.adds,Caller.notifies,Caller.adding,Caller.returned,afterAdd]

theorem thread_step {s next : Sys} {act : Act} (taken : s.step act = some next) :
    next.callers = s.callers ∧ (∀ t reply, act ≠ .caller t reply) ∨
      ∃ (t : Nat) (c c' : Caller), s.callers[t]? = some c ∧ next.callers = s.callers.set t c' ∧
        ((∃ reply host, act = .caller t reply ∧ CallStep s.host s.worker c reply host c') ∨
          c = .idle ∧ (∀ t reply, act ≠ .caller t reply) ∧
            (c'.adds = false ∨ ∃ op addr, act = .connect t op addr ∧ c' = .socket op addr ∧ offers s.host.kind op = true)) := by
  cases step_taken taken with
  | caller t c reply host later found may call => exact .inr ⟨t,c,later,found,rfl,.inl ⟨reply,host,rfl,call⟩⟩
  | sent act t sock addr raw buf p object sends kind idle found live valid room =>
    refine .inr ⟨t,_,_,idle,rfl,.inr ⟨rfl,?_,.inl rfl⟩⟩
    rintro u reply rfl
    simp [message] at sends
  | disconnect t sock idle => exact .inr ⟨t,_,_,idle,rfl,.inr ⟨rfl,by simp,.inl rfl⟩⟩
  | connect t op addr idle offered => exact .inr ⟨t,_,_,idle,rfl,.inr ⟨rfl,by simp,.inr ⟨op,addr,rfl,rfl,offered⟩⟩⟩
  | stop t idle outside first =>
    refine .inr ⟨t,_,_,idle,rfl,.inr ⟨rfl,by simp,.inl ?_⟩⟩
    cases s.host.kind <;> rfl
  | worker act host worker idle move =>
    refine .inl ⟨rfl,?_⟩
    rintro t reply rfl
    simpa [Act.works] using move.works
  | sendRefused act sends =>
    refine .inl ⟨rfl,?_⟩
    rintro t reply rfl
    simp [message] at sends
  | _ => exact .inl ⟨rfl,by simp⟩

/-- An object enters the map of a `UdpServer` in a call of `AddUdpSocket`. -/
theorem find_added {config : Config} {acts : List Act} {s next : Sys} {act : Act} (run : LightServer.Run config acts s)
    (kind : config.kind ≠ .tcpServer) (taken : s.step act = some next) {sock : SOCKET} {p : Ptr}
    (found : next.host.findSocketObject sock = some p) :
    s.host.findSocketObject sock = some p ∨ ∃ (t : Nat) (c : Caller), s.callers[t]? = some c ∧ c.adds = true ∧ c.adding = some sock := by
  rcases (view_step (run_inv run).control taken).find_enters found with old | ⟨_,⟨holding,_⟩ | ⟨t,notify,before,_⟩⟩
  · exact .inl old
  · have working : s.worker ≠ .exited := by
      intro exited
      simp [view,exited,Worker.role] at holding
    exact absurd holding ((run_owns run (by rwa [run_kind run]) working).owned.serving.2 sock)
  · obtain ⟨c,at_t,inserting⟩ := task_at before
    exact .inr ⟨t,c,at_t,task_insert inserting⟩

end Sys

namespace UdpServerTester

variable {config : Config} {members : Members} {acts acts' : List Act} {app app₁ next : App Members} {act : Act}

/-- The socket is one that `main` has been given or that it is about to be given. -/
def Known (sock : SOCKET) (app : App Members) : Prop :=
  app.members.Listens sock ∨ ∃ c, app.server.callers[1]? = some c ∧ c.adding = some sock

/-- Only `main` adds sockets, one after the other, and they are all there are in the map. -/
structure Listening (app : App Members) : Prop where
  adding : ∀ (t : Nat) (c : Caller), app.server.callers[t]? = some c → c.adds = true →
    t = 1 ∧ app.members.added < 2 ∧ c.notifies = true
  entered : ∀ sock p, app.server.host.findSocketObject sock = some p → Known sock app

theorem setListenSock_listens (members : Members) (few : members.added < 2) (sock : SOCKET) :
    (members.setListenSock sock).Listens sock ∧ ∀ k, members.Listens k → (members.setListenSock sock).Listens k := by
  by_cases first : members.added = 0
  · simp [Members.setListenSock,Members.Listens,first]
  · have one : members.added = 1 := by omega
    simp only [Members.setListenSock,Members.Listens,one]
    simp

theorem returned_adds {c : Caller} {reply : Reply} {sock : SOCKET} (returned : c.returned reply = some sock) : c.adds = true := by
  unfold Caller.returned at returned
  split at returned <;> first | rfl | contradiction

theorem members_call {c : Caller} {reply : Reply} (found : app.server.callers[1]? = some c)
    (taken : App.step listener app (.caller 1 reply) = some next) :
    next.members = (c.returned reply).elim app.members (fun sock => app.members.setListenSock sock) := by
  obtain ⟨sends,_⟩ | ⟨_,called⟩ := App.members_step taken
  · simp [Sys.message] at sends
  · simpa [listener,found] using called.symm

theorem members_same (aside : ∀ reply, act ≠ .caller 1 reply) (taken : App.step listener app act = some next) :
    next.members = app.members := by
  obtain ⟨_,same⟩ | ⟨_,called⟩ := App.members_step taken
  · exact same
  · cases act with
    | caller t reply =>
      have other : t ≠ 1 := by
        rintro rfl
        exact aside reply rfl
      simpa [listener,other] using called.symm
    | connect t op addr =>
      simp only [listener,Option.ite_none_right_eq_some] at called
      exact (Option.some.inj called.2).symm
    | stop t =>
      simp only [listener,Option.ite_none_right_eq_some] at called
      exact (Option.some.inj called.2).symm
    | disconnect t sock => simp [listener] at called
    | setReceiveLimit sock num => simp [listener] at called
    | _ => exact (Option.some.inj called).symm

theorem connect_few {t : Nat} {op : ConnectOp} {addr : Sockaddr} (taken : App.step listener app (.connect t op addr) = some next) :
    t = 1 ∧ app.members.added < 2 := by
  obtain ⟨sends,_⟩ | ⟨_,called⟩ := App.members_step taken
  · simp [Sys.message] at sends
  · simp only [listener,Option.ite_none_right_eq_some] at called
    exact ⟨called.1.1,called.1.2.1⟩

/-- A socket stays known: one that `main` is about to be given becomes a member. -/
theorem Known.step {sock : SOCKET} (known : Known sock app) (listening : Listening app)
    (taken : App.step listener app act = some next) : Known sock next := by
  have kept (same : next.members = app.members) (still : ∀ c, app.server.callers[1]? = some c → c.adding = some sock →
      ∃ d, next.server.callers[1]? = some d ∧ d.adding = some sock) : Known sock next := by
    rcases known with listens | ⟨c,main,adding⟩
    · exact .inl (same ▸ listens)
    · exact .inr (still c main adding)
  rcases Sys.thread_step (App.step_server taken) with ⟨callers,aside⟩ | ⟨t,c,c',found,callers,moved⟩
  · exact kept (members_same (fun reply => aside 1 reply) taken) (fun d main adding => ⟨d,callers ▸ main,adding⟩)
  · have bound := (List.getElem?_eq_some_iff.mp found).1
    have others (other : t ≠ 1) (d : Caller) (main : app.server.callers[1]? = some d) : next.server.callers[1]? = some d := by
      rw [callers,List.getElem?_set_ne other,main]
    rcases moved with ⟨reply,host,rfl,call⟩ | ⟨rfl,aside,_⟩
    · by_cases main : t = 1
      · subst main
        have members := members_call found taken
        obtain ⟨_,adding,_⟩ := call.adds (fun adds => (listening.adding 1 c found adds).2.2)
        have at_main : next.server.callers[1]? = some c' := by rw [callers,List.getElem?_set_self bound]
        cases returned : c.returned reply with
        | none =>
          refine kept (by simpa [returned] using members) (fun d at_d added => ?_)
          obtain rfl := Option.some.inj (found.symm.trans at_d)
          exact ⟨c',at_main,(adding sock added).resolve_right (by simp [returned])⟩
        | some given =>
          have few := (listening.adding 1 c found (returned_adds returned)).2.1
          have listens := setListenSock_listens app.members few given
          rw [returned] at members
          rcases known with before | ⟨d,at_d,added⟩
          · exact .inl (members ▸ listens.2 sock before)
          · obtain rfl := Option.some.inj (found.symm.trans at_d)
            rcases adding sock added with goes_on | now
            · exact .inr ⟨c',at_main,goes_on⟩
            · obtain rfl := Option.some.inj (returned.symm.trans now)
              exact .inl (members ▸ listens.1)
      · refine kept (members_same (fun reply same => main (Act.caller.inj same).1) taken) (fun d at_d added => ⟨d,others main d at_d,added⟩)
    · refine kept (members_same (fun reply => aside 1 reply) taken) (fun d at_d added => ?_)
      by_cases main : t = 1
      · subst main
        obtain rfl := Option.some.inj (found.symm.trans at_d)
        simp [Caller.adding] at added
      · exact ⟨d,others main d at_d,added⟩

theorem Listening.step (listening : Listening app) (run : LightServer.Run config acts app.server) (kind : config.kind = .udpServer)
    (taken : App.step listener app act = some next) : Listening next := by
  have stepped := App.step_server taken
  refine ⟨fun u d at_u adds => ?_,fun sock p found => ?_⟩
  · rcases Sys.thread_step stepped with ⟨callers,aside⟩ | ⟨t,c,c',found,callers,moved⟩
    · rw [members_same (fun reply => aside 1 reply) taken]
      exact listening.adding u d (callers ▸ at_u) adds
    · rw [callers] at at_u
      rcases moved with ⟨reply,host,rfl,call⟩ | ⟨rfl,aside,begins⟩
      · obtain ⟨before,_,returns⟩ := call.adds (fun adds => (listening.adding t c found adds).2.2)
        rcases getElem?_of_set found at_u with ⟨rfl,rfl⟩ | ⟨other,at_u⟩
        · obtain ⟨was,notifies⟩ := before adds
          obtain ⟨rfl,few,_⟩ := listening.adding u c found was
          have none_returned : c.returned reply = none := by
            by_contra returned
            simp [returns returned] at adds
          rw [members_call found taken,none_returned]
          exact ⟨rfl,few,notifies⟩
        · obtain ⟨rfl,few,notifies⟩ := listening.adding u d at_u adds
          rw [members_same (fun reply same => other (Act.caller.inj same).1.symm) taken]
          exact ⟨rfl,few,notifies⟩
      · rw [members_same (fun reply => aside 1 reply) taken]
        rcases getElem?_of_set found at_u with ⟨rfl,rfl⟩ | ⟨other,at_u⟩
        · obtain outside | ⟨op,addr,rfl,rfl,offered⟩ := begins
          · simp [outside] at adds
          · obtain ⟨rfl,few⟩ := connect_few taken
            refine ⟨rfl,few,?_⟩
            cases op <;> simp_all [Sys.offers,Caller.notifies,Sys.run_kind run]
        · exact listening.adding u d at_u adds
  · have known : Known sock app := by
      rcases Sys.find_added run (by simp [kind]) stepped found with old | ⟨t,c,at_t,adds,adding⟩
      · exact listening.entered sock p old
      · obtain ⟨rfl,_⟩ := listening.adding t c at_t adds
        exact .inr ⟨c,at_t,adding⟩
    exact known.step listening taken

theorem started_listening (config : Config) (members : Members) : Listening ⟨config.started,members,none⟩ := by
  refine ⟨fun t c at_t adds => ?_,fun sock p found => ?_⟩
  · obtain rfl : c = .idle := by
      have member := List.mem_of_getElem? at_t
      simp only [Config.started,List.mem_replicate] at member
      exact member.2
    simp [Caller.adds] at adds
  · simp [Config.started,Host.findSocketObject] at found

theorem members_settled (listening : Listening app) (started : app.members.added = 2)
    (taken : App.step listener app act = some next) : next.members = app.members := by
  by_cases main : ∃ reply, act = .caller 1 reply
  · obtain ⟨reply,rfl⟩ := main
    obtain ⟨callers,aside⟩ | ⟨t,c,c',found,callers,⟨reply',host,same,call⟩ | ⟨_,aside,_⟩⟩ := Sys.thread_step (App.step_server taken)
    · exact absurd rfl (aside 1 reply)
    · obtain ⟨rfl,_⟩ := Act.caller.inj same
      rw [members_call found taken]
      cases returned : c.returned reply with
      | none => rfl
      | some sock =>
        have few := (listening.adding 1 c found (returned_adds returned)).2.1
        omega
    · exact absurd rfl (aside 1 reply)
  · exact members_same (fun reply same => main ⟨reply,same⟩) taken

theorem adding_adds {c : Caller} {sock : SOCKET} (adding : c.adding = some sock) : c.adds = true := by
  induction c with
  | trigger cmd fd next ih => exact ih adding
  | evtWrite next ih => exact ih adding
  | _ => first | rfl | simp [Caller.adding] at adding

theorem callbacks_pass (listening : Listening app) (started : app.members.added = 2) (run : LightServer.Run config acts app.server)
    (kind : config.kind = .udpServer) (taken : App.step listener app act = some next) :
    ∀ call ∈ App.callbacks listener app act, call.message = some (call.sock,call.addr,call.buf) := by
  intro call member
  have later := listening.step run kind taken
  have members := members_settled listening started taken
  cases App.step_cases taken with
  | sends t sock addr raw buf sends asks later none_called worker => simp [none_called] at member
  | other silent same none_called worker => simp [none_called] at member
  | reads p sock events ctx buf addr silent due at_read some_bytes fits sender sent called =>
    obtain rfl : call = ⟨p,sock,buf,addr,next.due⟩ := by simpa [called] using member
    obtain ⟨object,connection,_⟩ := Sys.reads_entry (run_snoc run (App.step_server taken)) (by simp [kind]) at_read
    have listens : app.members.Listens sock := by
      rw [← members]
      rcases later.entered sock p connection.found with listens | ⟨c,main,adding⟩
      · exact listens
      · have few := (later.adding 1 c main (adding_adds adding)).2.1
        rw [members] at few
        omega
    rw [sent]
    rcases listens with ⟨_,rfl⟩ | ⟨_,rfl⟩
    · simp [listener,doRead]
    · simp only [listener,doRead]
      split
      · rename_i both
        rw [← both]
      · rfl

theorem same_socket : listener.Answers := by
  intro members sock addr buf message answer
  simp only [listener,doRead] at answer
  split at answer
  · rename_i at_a
    obtain rfl := Option.some.inj answer
    exact ⟨at_a.symm,rfl⟩
  · split at answer
    · rename_i at_b
      obtain rfl := Option.some.inj answer
      exact ⟨at_b.symm,rfl⟩
    · contradiction

theorem homed (kind : config.kind = .udpServer) (acts : List Act) (s : Sys) (run : LightServer.Run config acts s) : s.Homed := by
  intro p sock events ctx at_read
  obtain ⟨object,connection,_⟩ := Sys.reads_entry run (by simp [kind]) at_read
  exact ⟨connection.found,object,connection.live,connection.valid⟩

theorem asks_passed {callbacks : List Callback} (passed : ∀ call ∈ callbacks, call.message = some (call.sock,call.addr,call.buf)) (p : Ptr) :
    asksFor p callbacks = (callbacks.filter (fun call => call.object = p)).map (fun call => (call.sock,call.addr,call.buf)) := by
  rw [asksFor,← List.filterMap_eq_map]
  apply List.filterMap_congr
  intro call member
  exact passed call (List.mem_filter.mp member).1

theorem run_listening {a b : SOCKET} (kind : config.kind = .udpServer) (run : Run config a b acts app) : Listening app := by
  have kept (app : App Members) (act : Act) (next : App Members)
      (both : (∃ acts, LightServer.Run config acts app.server) ∧ Listening app) (taken : App.step listener app act = some next) :
      (∃ acts, LightServer.Run config acts next.server) ∧ Listening next := by
    obtain ⟨⟨acts,run⟩,listening⟩ := both
    exact ⟨⟨acts ++ [act],run_snoc run (App.step_server taken)⟩,listening.step run kind taken⟩
  have start : (∃ acts, LightServer.Run config acts (initial config a b).server) ∧ Listening (initial config a b) :=
    ⟨⟨[],rfl⟩,started_listening config _⟩
  exact (Transition.exec_invariant_free kept start run).2

/-- A state after `Start`, with the calls of `DoRead` and the answers since then. -/
structure Settled (config : Config) (start : App Members) (acts : List Act) (app : App Members) (calls : List Callback)
    (replies : List Answer) : Prop where
  listening : Listening app
  started : app.members.added = 2
  answering : App.Answering listener config app
    (Transition.trace (App.step listener) (App.callbacks listener) start acts ++ calls) (answers start acts ++ replies)
  passed : ∀ call ∈ calls, call.message = some (call.sock,call.addr,call.buf)

theorem Settled.step {start : App Members} {calls : List Callback} {replies : List Answer}
    (settled : Settled config start acts app calls replies) (kind : config.kind = .udpServer)
    (taken : App.step listener app act = some next) :
    Settled config start acts next (calls ++ App.callbacks listener app act) (replies ++ App.answers app act) := by
  obtain ⟨listening,started,answering,passed⟩ := settled
  obtain ⟨_,run,_⟩ := answering.ran
  refine ⟨listening.step run kind taken,(congrArg Members.added (members_settled listening started taken)).trans started,?_,?_⟩
  · rw [← List.append_assoc,← List.append_assoc]
    exact answering.step same_socket (homed kind) taken
  · intro call member
    rcases List.mem_append.mp member with old | new
    · exact passed call old
    · exact callbacks_pass listening started run kind taken call new

/-- After `Start`, every datagram that is read is passed back to its sender on the socket it came from, once and in
order; `sendto` has taken, or the queue of the socket holds, each answer for which there was room. -/
theorem passes_datagrams_back {a b : SOCKET} (first : Run config a b acts app₁) (kind : config.kind = .udpServer)
    (started : app₁.members.added = 2) (later : Transition.exec (App.step listener) app₁ acts' = some app) (p : Ptr) :
    (∃ calls, app.server.host.handed = app₁.server.host.handed ++ calls ∧
      app₁.dueTo p ++ (calls.filter (fun call => call.1 = p)).map (fun call => (call.2.1,call.2.2.2,call.2.2.1)) =
        answersFor p (answers app₁ acts') ++ app.dueTo p) ∧
    ∀ object, app.server.host.heap p = some object →
      app.server.host.sentDatagrams p ++ Host.unsentDatagrams object =
        (storedFor p (answers (initial config a b) acts ++ answers app₁ acts')).map Prod.snd := by
  have answering : App.Answering listener config app₁
      (Transition.trace (App.step listener) (App.callbacks listener) (initial config a b) acts) (answers (initial config a b) acts) :=
    App.run_answering first same_socket (homed kind)
  have start : Settled config (initial config a b) acts app₁ [] [] := by
    refine ⟨run_listening kind first,started,?_,by simp⟩
    rw [List.append_nil,List.append_nil]
    exact answering
  have settled : Settled config (initial config a b) acts app
      ([] ++ Transition.trace (App.step listener) (App.callbacks listener) app₁ acts') ([] ++ answers app₁ acts') :=
    Transition.traces_invariant (I := Settled config (initial config a b) acts) (fun _ _ _ _ _ settled taken => settled.step kind taken)
      start later
  simp only [List.nil_append] at settled
  obtain ⟨_,_,whole,passed⟩ := settled
  refine ⟨⟨_,by rw [whole.handed,List.map_append,← answering.handed],?_⟩,fun object live => ?_⟩
  · have asked := whole.asks p
    rw [asksFor_append,answering.asks p,asks_passed passed,answersFor_append,List.append_assoc,List.append_assoc] at asked
    rw [List.filter_map,List.map_map]
    exact List.append_cancel_left asked
  · obtain ⟨_,run,sizes⟩ := whole.ran
    rw [((Sys.run_whole run kind sizes).objects p object live).kept,whole.stored p]

/-- `main` adds the sockets 7 and 8, and a datagram comes to each. -/
def twoPorts : List Act :=
  [udpServerTestPortA,udpServerTestPortB].zipIdx.flatMap (fun port =>
    [.connect 1 .addUdpSocket (UdpServer.addListenSocket inaddrAny port.1),.caller 1 (.fd (7+port.2)),.caller 1 (.object .blank 0)] ++
      List.replicate 4 (.caller 1 .done))

def passedBack : List Act :=
  [.epollPwait (.ok [(7,epollin),(8,epollin)])] ++ [((7 : SOCKET),([9] : Sockaddr),([1,2] : List UInt8)),(8,[8],[3])].flatMap (fun d =>
    [.worker,.beforeIo (.ok 0) 0,.readyRead 0,.read (.ok d.2.2) d.2.1 0,.udpSend 0 d.1 d.2.1 ⟨none,0,0,0,0,[]⟩ d.2.2,
      .caller 0 .done,.caller 0 .done,.read (.error ewouldblock) [] 0])

theorem two_ports_pass_back : ∃ app₁ app, Run (.plain .udpServer 2) 0 0 twoPorts app₁ ∧
    Transition.exec (App.step listener) app₁ passedBack = some app ∧ answersFor 1 (answers app₁ passedBack) = [(8,some [8],[3])] ∧
    ∃ calls, app.server.host.handed = app₁.server.host.handed ++ calls ∧
      app₁.dueTo 1 ++ (calls.filter (fun call => call.1 = 1)).map (fun call => (call.2.1,call.2.2.2,call.2.2.1)) =
        answersFor 1 (answers app₁ passedBack) ++ app.dueTo 1 := by
  obtain ⟨app₁,first,started,replies,runs⟩ : ∃ app₁, Run (.plain .udpServer 2) 0 0 twoPorts app₁ ∧ app₁.members.added = 2 ∧
      answersFor 1 (answers app₁ passedBack) = [(8,some [8],[3])] ∧
      (Transition.exec (App.step listener) app₁ passedBack).isSome = true :=
    Transition.exec_reaches _ (by decide +kernel)
  obtain ⟨app,later⟩ := Option.isSome_iff_exists.mp runs
  exact ⟨app₁,app,first,later,replies,(passes_datagrams_back first rfl started later 1).1⟩

end UdpServerTester

end LightServer
