import LightServer.Adding
import LightServer.OpenFds
import LightServer.OwnedFds

/-! One thread adds a connection while the worker removes another. The kernel may give the new socket
the number that the removal has closed and not erased from the map. -/
namespace LightServer

def Worker.removal : Worker → Option (Ptr × SOCKET)
  | .remove _ p sock _ _ => some (p,sock)
  | _ => none

/-- The thread looks for the socket in the map. -/
def Caller.counted : Caller → Option SOCKET
  | .count sock _ _ => some sock
  | _ => none

/-- Every system call succeeds, and `socket` gives this fd. -/
def Reply.gives (sock : SOCKET) : Reply → Bool
  | .failed _ => false
  | .fd given => given = sock
  | _ => true

namespace Sys

/-- The connection that the worker is removing, or is about to. -/
def inRemoval (s : Sys) : Option (Ptr × SOCKET) :=
  match s.worker with
  | .remove _ p sock _ _ => some (p,sock)
  | _ => s.workerStep.bind (fun next => next.worker.removal)

/-- The steps of one removal and of the thread that is given `sock`. -/
def race (t : Nat) (sock : SOCKET) (s : Sys) (act : Act) : Option Sys :=
  match act with
  | .worker => if s.inRemoval.isSome then s.step .worker else none
  | .caller u reply => if u = t ∧ reply.gives sock then s.step (.caller u reply) else none
  | _ => none

/-- A thread does not look for a socket that the removal has closed and not erased. -/
def CountsOutside (s : Sys) (act : Act) : Prop :=
  ∀ c ∈ s.calling act, ∀ sock ∈ c.counted, s.worker.role.closing sock = false

instance (s : Sys) (act : Act) : Decidable (CountsOutside s act) :=
  inferInstanceAs (Decidable (∀ c ∈ s.calling act, ∀ sock ∈ c.counted, s.worker.role.closing sock = false))

/-- The worker is inside a removal, or the front command starts one. -/
inductive Removal (h : Host) : Worker → Ptr → SOCKET → Prop
  | inside (stage p sock count b) : Removal h (.remove stage p sock count b) p sock
  | next (count b cmd queue p object) (front : h.cmdQueue = cmd::queue) (left : count ≠ 0)
      (kind : cmd.cmd = .disconnect) (found : h.findSocketObject cmd.fd = some p) (live : h.heap p = some object)
      (valid : object.fValid = true) : Removal h (.command count b) p object.socketId

theorem Move.removal {h h' : Host} {w w' : Worker} {act : Act} (move : Move h w act h' w') {p : Ptr} {sock : SOCKET}
    (removing : w'.removal = some (p,sock)) : Removal h w p sock := by
  have away {role : Role} (role_eq : w'.role = role) (other : ∀ stage, role ≠ .removing stage p sock) : Removal h w p sock := by
    cases w' with
    | remove stage q k count b =>
      obtain ⟨rfl,rfl⟩ : q = p ∧ k = sock := by simpa [Worker.removal] using removing
      exact absurd role_eq.symm (other stage)
    | _ => simp [Worker.removal] at removing
  cases move with
  | disconnected count b cmd queue q object front left kind found live valid =>
    obtain ⟨rfl,rfl⟩ : q = p ∧ object.socketId = sock := by simpa [Worker.removal] using removing
    exact .next count b cmd queue q object front left kind found live valid
  | removeFD q k count b =>
    obtain ⟨rfl,rfl⟩ : q = p ∧ k = sock := by simpa [Worker.removal] using removing
    exact .inside _ q k count b
  | removeClose q k count b =>
    obtain ⟨rfl,rfl⟩ : q = p ∧ k = sock := by simpa [Worker.removal] using removing
    exact .inside _ q k count b
  | removeDelete q k count b =>
    obtain ⟨rfl,rfl⟩ : q = p ∧ k = sock := by simpa [Worker.removal] using removing
    exact .inside _ q k count b
  | batchEnd bRun => cases bRun <;> simp [Worker.removal] at removing
  | serverIo q events ctx soError now kind =>
    rcases role_doProcessIo q events ctx with role | role <;> exact away role (by simp)
  | clientIo q events ctx soError now kind passed =>
    rcases role_doProcessIo q events ctx with role | role <;> exact away role (by simp)
  | readDone q k events ctx rc addr timeMs rs fits done =>
    rcases role_afterRead rs q events ctx with role | role <;> exact away role (by simp)
  | _ => first | exact away (role_resume _) (by simp) | simp [Worker.removal] at removing

theorem removal_of_inRemoval {s : Sys} {p : Ptr} {sock : SOCKET} (removing : s.inRemoval = some (p,sock)) :
    Removal s.host s.worker p sock := by
  unfold Sys.inRemoval at removing
  split at removing
  · rename_i at_stage
    obtain ⟨rfl,rfl⟩ : _ ∧ _ := by simpa using removing
    rw [at_stage]
    exact .inside _ _ _ _ _
  · obtain ⟨next,taken,removing⟩ := Option.bind_eq_some_iff.mp removing
    obtain ⟨host,worker,move,rfl⟩ := workerStep_move taken
    exact move.removal removing

/-- What a step of the removal of one socket does to the other sockets. -/
structure Leaves (k : SOCKET) (h h' : Host) : Prop where
  nextPtr : h'.nextPtr = h.nextPtr
  find : ∀ sock, h'.findSocketObject sock = h.findSocketObject sock ∨ sock = k ∧ h'.findSocketObject sock = none
  interest : ∀ fd, h'.interest fd = h.interest fd ∨ fd = k ∧ h'.interest fd = none

theorem Leaves.of_same {k : SOCKET} {h h' : Host} (nextPtr : h'.nextPtr = h.nextPtr) (map : h'.sockObjectMap = h.sockObjectMap)
    (interest : h'.interest = h.interest) : Leaves k h h' := by
  refine ⟨nextPtr,fun sock => .inl ?_,fun fd => .inl (congrFun interest fd)⟩
  unfold Host.findSocketObject
  rw [map]

/-- A removal goes on to its end. -/
theorem Move.leaves {h h' : Host} {w w' : Worker} {p : Ptr} {k : SOCKET} (move : Move h w .worker h' w')
    (removing : Removal h w p k) :
    Leaves k h h' ∧ ((∃ stage count b, w' = .remove stage p k count b) ∨ ∃ count b, w' = .popCommand count b) := by
  cases removing with
  | inside stage p sock count b =>
    cases move with
    | removeFD =>
      refine ⟨⟨rfl,fun _ => .inl rfl,fun fd => ?_⟩,.inl ⟨_,_,_,rfl⟩⟩
      by_cases same : fd = k
      · exact .inr ⟨same,by simp [Host.deleteFD,same]⟩
      · exact .inl (by simp [Host.deleteFD,same])
    | removeClose =>
      refine ⟨⟨?_,fun sock => .inl ?_,fun fd => ?_⟩,.inl ⟨_,_,_,rfl⟩⟩
      · unfold Host.closeFD
        split <;> rfl
      · unfold Host.findSocketObject
        simp
      · unfold Host.closeFD
        split
        · by_cases same : fd = k
          · exact .inr ⟨same,by simp [same]⟩
          · exact .inl (Function.update_of_ne same none h.interest)
        · exact .inl rfl
    | removeDelete => exact ⟨.of_same rfl rfl rfl,.inl ⟨_,_,_,rfl⟩⟩
    | removeErase =>
      refine ⟨⟨rfl,fun sock => ?_,fun _ => .inl rfl⟩,.inr ⟨_,_,rfl⟩⟩
      by_cases same : sock = k
      · exact .inr ⟨same,by rw [same]; exact AList.lookup_erase k h.sockObjectMap⟩
      · exact .inl (AList.lookup_erase_ne same)
  | next count b cmd queue p object front left kind found live valid =>
    cases move with
    | commandsDone _ _ finished => simp [front,left] at finished
    | sendCommand _ _ other rest q front' _ sends =>
      obtain ⟨rfl,_⟩ : cmd = other ∧ _ := by simpa [front] using front'
      simp [kind] at sends
    | ignored _ _ other rest front' _ none =>
      obtain ⟨rfl,_⟩ : cmd = other ∧ _ := by simpa [front] using front'
      have invalid := none kind p found
      simp [Host.isValid,live,valid] at invalid
    | disconnected _ _ other rest q object' front' _ _ found' live' =>
      obtain ⟨rfl,_⟩ : cmd = other ∧ _ := by simpa [front] using front'
      obtain rfl : p = q := Option.some.inj (found.symm.trans found')
      obtain rfl : object = object' := Option.some.inj (live.symm.trans live')
      exact ⟨.of_same rfl rfl rfl,.inl ⟨_,_,_,rfl⟩⟩

/-- The connection that is being removed is in the map. -/
theorem Removal.entry {s : Sys} {p : Ptr} {k : SOCKET} (removing : Removal s.host s.worker p k) (inv : Inv s) :
    s.host.findSocketObject k = some p := by
  generalize w_eq : s.worker = w at removing
  cases removing with
  | inside stage p k count b => exact inv.entered.removing stage p k (by simp [view,w_eq,Worker.role])
  | next count b cmd queue p object front left kind found live valid =>
    have socketId : object.socketId = cmd.fd := inv.named found live (by simp [view,w_eq,Worker.role])
    exact socketId ▸ found

/-- What a thread that adds a connection leaves of a removal that has not begun. -/
theorem Removal.host {h h' : Host} {w : Worker} {p : Ptr} {k : SOCKET} (removing : Removal h w p k)
    (queue : h'.cmdQueue = h.cmdQueue) (find : ∀ fd q, h.findSocketObject fd = some q → h'.findSocketObject fd = some q)
    (heap : h'.heap p = h.heap p) : Removal h' w p k := by
  cases removing with
  | inside stage p k count b => exact .inside stage p k count b
  | next count b cmd queue' p object front left kind found live valid =>
    exact .next count b cmd queue' p object (queue.trans front) left kind (find _ _ found) (heap.trans live) valid

/-- The removal of `p` under `k`, while a thread makes the object `n`. -/
structure Racing (p n : Ptr) (k : SOCKET) (s : Sys) : Prop where
  inv : Inv s
  owns : Owns s
  kind : s.host.kind ≠ .tcpServer
  unregistered : ∀ fd, s.host.isOpen fd = false → s.host.interest fd = none
  older : p < n
  worker : Removal s.host s.worker p k ∨ ∃ count b, s.worker = .popCommand count b

section racing

variable {p n : Ptr} {k : SOCKET} {s next : Sys} {act : Act}

theorem Racing.working (racing : Racing p n k s) : s.worker ≠ .exited := by
  rcases racing.worker with removing | ⟨count,b,at_pop⟩
  · intro exited
    rw [exited] at removing
    cases removing
  · simp [at_pop]

theorem Racing.step (racing : Racing p n k s) (taken : s.step act = some next)
    (worker : Removal next.host next.worker p k ∨ ∃ count b, next.worker = .popCommand count b) : Racing p n k next := by
  refine ⟨racing.inv.step taken,racing.owns.step racing.inv racing.kind racing.working taken,
    (racing.inv.kind taken).trans_ne racing.kind,fun fd shut => ?_,racing.older,worker⟩
  rcases (step_keepsTidy taken).registered fd shut with none | ⟨before,same⟩
  · exact none
  · exact same.trans (racing.unregistered fd before)

theorem Racing.removal (racing : Racing p n k s) {t : Nat} {sock : SOCKET} (taken : s.race t sock .worker = some next) :
    Racing p n k next ∧ next.callers = s.callers ∧ Leaves k s.host next.host ∧ s.host.findSocketObject k = some p := by
  obtain ⟨begun,taken⟩ : s.inRemoval.isSome = true ∧ s.step .worker = some next := by simpa [race] using taken
  have removing : Removal s.host s.worker p k := by
    rcases racing.worker with removing | ⟨count,b,at_pop⟩
    · exact removing
    · simp [inRemoval,at_pop,workerStep,moveTo,Worker.removal] at begun
  cases step_taken taken with
  | sendRefused act sends => simp [message] at sends
  | sent act t sock addr raw buf p object sends => simp [message] at sends
  | worker act host worker idle move =>
    obtain ⟨leaves,later⟩ := move.leaves removing
    refine ⟨racing.step taken ?_,rfl,leaves,removing.entry racing.inv⟩
    rcases later with ⟨stage,count,b,rfl⟩ | ⟨count,b,rfl⟩
    · exact .inl (.inside stage p k count b)
    · exact .inr ⟨count,b,rfl⟩

/-- How far the thread has come that makes the object `n` for `sock`. -/
def Adds (n : Ptr) (sock : SOCKET) (h : Host) : Caller → Prop
  | .socket _ _ => h.nextPtr = n
  | .connect _ _ fd => fd = sock ∧ h.nextPtr = n ∧ h.interest sock = none
  | .count fd q _ => fd = sock ∧ q = n ∧ h.interest sock = none
  | .insert fd q _ => fd = sock ∧ q = n ∧ h.interest sock = none ∧ h.findSocketObject sock = none
  | .addFD fd q _ => fd = sock ∧ q = n ∧ h.interest sock = none ∧ h.findSocketObject sock = some n
  | .onConnect _ _ | .idle => h.findSocketObject sock = some n ∧ h.interest sock = some (.object n)
  | _ => False

/-- The thread has given up the object. -/
def Loses (n : Ptr) (sock : SOCKET) (h : Host) : Caller → Prop
  | .onConnect _ _ | .idle => h.findSocketObject sock ≠ some n
  | _ => False

theorem adds_afterAdd {sock fd : SOCKET} {q : Ptr} {notify : Bool} {h : Host} :
    Adds n sock h (afterAdd notify fd q) ↔ h.findSocketObject sock = some n ∧ h.interest sock = some (.object n) := by
  cases notify <;> rfl

theorem loses_afterAdd {sock fd : SOCKET} {q : Ptr} {notify : Bool} {h : Host} :
    Loses n sock h (afterAdd notify fd q) ↔ h.findSocketObject sock ≠ some n := by
  cases notify <;> rfl

/-- A removal of another object leaves what the thread has done. -/
theorem Leaves.adds {h h' : Host} {sock : SOCKET} {c : Caller} (leaves : Leaves k h h') (entry : h.findSocketObject k = some p)
    (older : p < n) (adds : Adds n sock h c) : Adds n sock h' c := by
  have free (unregistered : h.interest sock = none) : h'.interest sock = none := by
    rcases leaves.interest sock with same | ⟨_,deleted⟩
    · exact same.trans unregistered
    · exact deleted
  have entered (found : h.findSocketObject sock = some n) : h'.findSocketObject sock = some n ∧ h'.interest sock = h.interest sock := by
    have differs : sock ≠ k := by
      rintro rfl
      exact older.ne (Option.some.inj (entry.symm.trans found))
    exact ⟨((leaves.find sock).resolve_right (fun erased => differs erased.1)).trans found,
      (leaves.interest sock).resolve_right (fun deleted => differs deleted.1)⟩
  cases c with
  | socket op addr => exact leaves.nextPtr.trans adds
  | connect op addr fd => exact ⟨adds.1,leaves.nextPtr.trans adds.2.1,free adds.2.2⟩
  | count fd q notify => exact ⟨adds.1,adds.2.1,free adds.2.2⟩
  | insert fd q notify =>
    obtain ⟨same,made,unregistered,missing⟩ := adds
    refine ⟨same,made,free unregistered,?_⟩
    rcases leaves.find sock with same | ⟨_,erased⟩
    · exact same.trans missing
    · exact erased
  | addFD fd q notify =>
    obtain ⟨same,made,unregistered,found⟩ := adds
    exact ⟨same,made,free unregistered,(entered found).1⟩
  | onConnect fd q => exact ⟨(entered adds.1).1,(entered adds.1).2.trans adds.2⟩
  | idle => exact ⟨(entered adds.1).1,(entered adds.1).2.trans adds.2⟩
  | _ => exact adds

theorem Leaves.loses {h h' : Host} {sock : SOCKET} {c : Caller} (leaves : Leaves k h h') (loses : Loses n sock h c) :
    Loses n sock h' c := by
  have gone (differs : h.findSocketObject sock ≠ some n) : h'.findSocketObject sock ≠ some n := by
    rcases leaves.find sock with same | ⟨_,none⟩
    · exact same ▸ differs
    · simp [none]
  cases c with
  | onConnect fd q => exact gone loses
  | idle => exact gone loses
  | _ => exact loses

theorem Racing.goes (racing : Racing p n k s) {t : Nat} {c' : Caller} {host : Host} {reply : Reply}
    (taken : s.step (.caller t reply) = some ({s with host := host}.setCaller t c')) (queue : host.cmdQueue = s.host.cmdQueue)
    (find : ∀ fd q, s.host.findSocketObject fd = some q → host.findSocketObject fd = some q)
    (heap : host.heap p = s.host.heap p) : Racing p n k ({s with host := host}.setCaller t c') := by
  refine racing.step taken ?_
  rcases racing.worker with removing | at_pop
  · exact .inl (removing.host queue find heap)
  · exact .inr at_pop

theorem callerStep_of_step {t : Nat} {c : Caller} {reply : Reply} (found : s.callers[t]? = some c)
    (taken : s.step (.caller t reply) = some next) : s.callerStep t c reply = some next := by
  simp only [Sys.step,found,Option.bind_some] at taken
  split at taken
  · exact taken
  · contradiction

/-- A socket that a thread has opened and not entered is not in the map, but for the one whose entry is being removed. -/
theorem Racing.missing (racing : Racing p n k s) {t : Nat} {sock : SOCKET} {q : Ptr} {notify : Bool}
    (found : s.callers[t]? = some (.count sock q notify)) (outside : s.worker.role.closing sock = false) :
    s.host.findSocketObject sock = none := by
  have held := (racing.owns.owned.held sock ⟨_,List.mem_of_getElem? found,rfl⟩).2
  rw [← Option.not_isSome_iff_eq_none]
  intro present
  simp [held present] at outside

theorem Racing.closing (racing : Racing p n k s) {fd : SOCKET} (closing : s.worker.role.closing fd = true) :
    s.host.findSocketObject fd = some p := by
  rcases racing.worker with removing | ⟨count,b,at_pop⟩
  · have entry := removing.entry racing.inv
    generalize s.worker = w at removing closing
    cases removing with
    | inside stage p k count b =>
      obtain rfl : k = fd := by cases stage <;> simp [Worker.role,Role.closing] at closing <;> exact closing
      exact entry
    | next count b cmd queue p object front left kind found live valid => simp [Worker.role,Role.closing] at closing
  · simp [at_pop,Worker.role,Role.closing] at closing

theorem find_insertSocketObject {h : Host} {sock : SOCKET} (missing : h.findSocketObject sock = none) (p : Ptr) (other : SOCKET) :
    (h.insertSocketObject sock p).findSocketObject other = if other = sock then some p else h.findSocketObject other := by
  have find := congrFun (congrArg Table.find (h.table_insertSocketObject sock p)) other
  refine find.trans ?_
  simp [Host.table,missing,Function.update_apply]

/-- The new object's socket is open and free, so `epoll_ctl` registers it. -/
theorem Racing.registered (racing : Racing p n k s) {sock : SOCKET} (entered : s.host.findSocketObject sock = some n)
    (unregistered : s.host.interest sock = none) : (s.host.addFD sock (.object n) false).2 =
      {s.host with interest := Function.update s.host.interest sock (some (.object n))} := by
  have opened : s.host.isOpen sock = true := by
    refine (racing.owns.owned.keys sock (Option.isSome_iff_exists.mpr ⟨n,entered⟩)).resolve_right (fun closing => ?_)
    exact racing.older.ne (Option.some.inj ((racing.closing closing).symm.trans entered))
  have started : s.host.hasStart = true := by simp [Host.hasStart,(racing.inv.control.started racing.working).2]
  simp [Host.addFD,started,opened,unregistered]

theorem Racing.adds (racing : Racing p n k s) {t : Nat} {sock : SOCKET} {reply : Reply} {c : Caller}
    (found : s.callers[t]? = some c) (adds : Adds n sock s.host c)
    (outside : ∀ fd ∈ c.counted, s.worker.role.closing fd = false) (gives : reply.gives sock = true)
    (taken : s.step (.caller t reply) = some next) :
    Racing p n k next ∧ ∃ c, next.callers[t]? = some c ∧ Adds n sock next.host c := by
  have inside := (List.getElem?_eq_some_iff.mp found).1
  have now (host : Host) (c' : Caller) : ({s with host := host}.setCaller t c').callers[t]? = some c' :=
    List.getElem?_set_self inside
  have called := callerStep_of_step found taken
  cases c with
  | socket op addr =>
    cases reply with
    | fd fd =>
      obtain rfl : fd = sock := by simpa [Reply.gives] using gives
      obtain ⟨⟨_,unused⟩,rfl⟩ : _ ∧ ({s with host := s.host.openFD fd}.setCaller t (.connect op addr fd)) = next := by
        simpa [callerStep] using called
      exact ⟨racing.goes taken rfl (fun _ _ => id) rfl,_,now _ _,rfl,adds,racing.unregistered fd unused⟩
    | failed code => simp [Reply.gives] at gives
    | _ => simp [callerStep] at called
  | connect op addr fd =>
    obtain ⟨rfl,rfl,unregistered⟩ := adds
    have prepared (raw : SocketObject) (from_addr : Option Sockaddr) (connected : Option UInt32)
        (done : next = {s with host := (s.host.prepareObject raw from_addr connected).2}.setCaller t
          (.count fd (s.host.prepareObject raw from_addr connected).1 connected.isSome)) :
        Racing p s.host.nextPtr k next ∧ ∃ c, next.callers[t]? = some c ∧ Adds s.host.nextPtr fd next.host c := by
      obtain ⟨object,made,ptr⟩ := Host.prepareObject_frame raw from_addr connected s.host
      rw [made] at done
      subst done
      have heap : Function.update s.host.heap s.host.nextPtr (some object) p = s.host.heap p :=
        Function.update_of_ne racing.older.ne _ _
      exact ⟨racing.goes taken rfl (fun _ _ => id) heap,_,now _ _,rfl,ptr,unregistered⟩
    obtain ⟨host,later,call,same⟩ := callerStep_call called
    cases call with
    | connected _ _ _ raw seconds from_addr => exact prepared raw from_addr (some seconds) same
    | inProgress _ _ raw => exact prepared raw (some addr) none same
    | leaked => simp [Reply.gives] at gives
    | refused => simp [Reply.gives] at gives
  | count fd q notify =>
    obtain ⟨rfl,rfl,unregistered⟩ := adds
    have missing := racing.missing found (outside fd rfl)
    obtain ⟨host,later,call,rfl⟩ := callerStep_call called
    cases call with
    | present _ _ _ present => exact absurd missing (by simpa [Host.findSocketObject,AList.lookup_eq_none] using present)
    | absent => exact ⟨racing.goes taken rfl (fun _ _ => id) rfl,_,now _ _,rfl,rfl,unregistered,missing⟩
  | insert fd q notify =>
    obtain ⟨rfl,rfl,unregistered,missing⟩ := adds
    obtain ⟨host,later,call,rfl⟩ := callerStep_call called
    cases call with
    | insert =>
      have find := find_insertSocketObject missing q
      refine ⟨racing.goes taken rfl (fun other r entered => ?_) ?_,_,now _ _,rfl,rfl,unregistered,?_⟩
      · have differs : other ≠ fd := by
          rintro rfl
          simp [missing] at entered
        exact (find other).trans ((if_neg differs).trans entered)
      · exact Function.update_of_ne racing.older.ne _ _
      · exact (find fd).trans (if_pos rfl)
  | addFD fd q notify =>
    obtain ⟨rfl,rfl,unregistered,entered⟩ := adds
    have done : {s with host := (s.host.addFD fd (.object q) false).2}.setCaller t (afterAdd notify fd q) = next := by
      cases reply with
      | done => simpa [callerStep] using called
      | failed code => simp [Reply.gives] at gives
      | _ => simp [callerStep] at called
    subst done
    rw [racing.registered entered unregistered] at taken ⊢
    refine ⟨racing.goes taken rfl (fun _ _ => id) rfl,_,now _ _,adds_afterAdd.mpr ⟨entered,?_⟩⟩
    exact Function.update_self fd _ s.host.interest
  | onConnect fd q =>
    obtain ⟨host,later,call,rfl⟩ := callerStep_call called
    cases call with
    | onConnect => exact ⟨racing.goes taken rfl (fun _ _ => id) rfl,_,now _ _,adds⟩
  | idle => simp [callerStep] at called
  | _ => exact adds.elim

/-- A thread that looks for its socket between the close and the erase gives up its object. -/
theorem Racing.breaks (racing : Racing p n k s) {t : Nat} {sock fd : SOCKET} {q : Ptr} {notify : Bool} {reply : Reply}
    (found : s.callers[t]? = some (.count fd q notify)) (adds : Adds n sock s.host (.count fd q notify))
    (closing : s.worker.role.closing fd = true) (taken : s.step (.caller t reply) = some next) :
    Racing p n k next ∧ ∃ c, next.callers[t]? = some c ∧ Loses n sock next.host c := by
  obtain ⟨rfl,rfl,_⟩ := adds
  have entry := racing.closing closing
  have called := callerStep_of_step found taken
  obtain ⟨host,later,call,rfl⟩ := callerStep_call called
  cases call with
  | present =>
    refine ⟨racing.goes taken rfl (fun _ _ => id) rfl,afterAdd notify fd q,?_,loses_afterAdd.mpr ?_⟩
    · exact List.getElem?_set_self (List.getElem?_eq_some_iff.mp found).1
    · exact fun mine => racing.older.ne (Option.some.inj (entry.symm.trans mine))
  | absent _ _ _ missing =>
    rw [Host.findSocketObject,AList.lookup_eq_none.mpr missing] at entry
    contradiction

theorem Racing.loses (racing : Racing p n k s) {t : Nat} {sock : SOCKET} {reply : Reply} {c : Caller}
    (found : s.callers[t]? = some c) (loses : Loses n sock s.host c) (taken : s.step (.caller t reply) = some next) :
    Racing p n k next ∧ ∃ c, next.callers[t]? = some c ∧ Loses n sock next.host c := by
  have called := callerStep_of_step found taken
  cases c with
  | onConnect fd q =>
    obtain ⟨host,later,call,rfl⟩ := callerStep_call called
    cases call with
    | onConnect =>
      refine ⟨racing.goes taken rfl (fun _ _ => id) rfl,.idle,?_,loses⟩
      exact List.getElem?_set_self (List.getElem?_eq_some_iff.mp found).1
  | idle => simp [callerStep] at called
  | _ => exact loses.elim

/-- The race as long as nothing is lost. -/
def Making (t : Nat) (p n : Ptr) (k sock : SOCKET) (s : Sys) : Prop :=
  Racing p n k s ∧ ∃ c, s.callers[t]? = some c ∧ Adds n sock s.host c

/-- The race once the new object is in no table. -/
def Orphaned (t : Nat) (p n : Ptr) (k sock : SOCKET) (s : Sys) : Prop :=
  Racing p n k s ∧ ∃ c, s.callers[t]? = some c ∧ Loses n sock s.host c

variable {t : Nat} {sock : SOCKET}

theorem race_caller {u : Nat} {reply : Reply} (taken : s.race t sock (.caller u reply) = some next) :
    u = t ∧ reply.gives sock = true ∧ s.step (.caller t reply) = some next := by
  obtain ⟨⟨rfl,gives⟩,moved⟩ : (u = t ∧ reply.gives sock = true) ∧ s.step (.caller u reply) = some next := by
    simpa [race] using taken
  exact ⟨rfl,gives,moved⟩

theorem Making.step (making : Making t p n k sock s) (outside : CountsOutside s act) (taken : s.race t sock act = some next) :
    Making t p n k sock next := by
  obtain ⟨racing,c,found,adds⟩ := making
  cases act with
  | worker =>
    obtain ⟨later,callers,leaves,entry⟩ := racing.removal taken
    exact ⟨later,c,callers ▸ found,leaves.adds entry racing.older adds⟩
  | caller u reply =>
    obtain ⟨rfl,gives,moved⟩ := race_caller taken
    exact racing.adds found adds (outside c found) gives moved
  | _ => simp [race] at taken

theorem Making.breaks (making : Making t p n k sock s) (between : ¬ CountsOutside s act) (taken : s.race t sock act = some next) :
    Orphaned t p n k sock next := by
  obtain ⟨racing,c,found,adds⟩ := making
  simp only [CountsOutside,not_forall,Bool.not_eq_false] at between
  obtain ⟨d,looks,fd,counted,closing⟩ := between
  cases act with
  | caller u reply =>
    obtain ⟨rfl,_,moved⟩ := race_caller taken
    obtain rfl : c = d := Option.some.inj (found.symm.trans looks)
    cases c with
    | count k q notify =>
      obtain rfl : k = fd := Option.some.inj counted
      exact racing.breaks found adds closing moved
    | _ => simp [Caller.counted] at counted
  | _ => simp [calling] at looks

theorem Orphaned.step (orphaned : Orphaned t p n k sock s) (taken : s.race t sock act = some next) : Orphaned t p n k sock next := by
  obtain ⟨racing,c,found,loses⟩ := orphaned
  cases act with
  | worker =>
    obtain ⟨later,callers,leaves,entry⟩ := racing.removal taken
    exact ⟨later,c,callers ▸ found,leaves.loses loses⟩
  | caller u reply =>
    obtain ⟨rfl,_,moved⟩ := race_caller taken
    exact racing.loses found loses moved
  | _ => simp [race] at taken

end racing

theorem connecting_kind {config : Config} {acts : List Act} {s : Sys} (run : Run config acts s) {c : Caller} (member : c ∈ s.callers)
    (adds : c.task ≠ .other) : s.host.kind ≠ .tcpServer := by
  intro server
  have inv : ServerInv (.socket 0) False s :=
    Transition.exec_invariant_free (fun _ _ _ inv taken => inv.step taken False.elim)
      (started_serverInv config ((run_kind run).symm.trans server) (.socket 0) False) run
  exact adds (inv.serving.tasks _ (List.mem_map.mpr ⟨c,member,rfl⟩))

/-- The object that the thread makes is in the map and registered under the socket that the operation returns, exactly if
the thread has not looked for that socket between the close and the erase of the removal. -/
theorem added_unless_between_iff {config : Config} {before acts : List Act} {s final : Sys} (run : Run config before s) {t : Nat}
    {op : ConnectOp} {addr : Sockaddr} (adding : s.callers[t]? = some (.socket op addr)) {p : Ptr} {k : SOCKET}
    (removing : s.inRemoval = some (p,k)) {sock : SOCKET} (race : Transition.exec (Sys.race t sock) s acts = some final)
    (returned : final.callers[t]? = some .idle) :
    (final.host.findSocketObject sock = some s.host.nextPtr ∧ final.host.interest sock = some (.object s.host.nextPtr)) ↔
      Transition.Along (Sys.race t sock) CountsOutside s acts := by
  have inv := run_inv run
  have removing := removal_of_inRemoval removing
  have entry := removing.entry inv
  have kind := connecting_kind run (List.mem_of_getElem? adding) (by simp [Caller.task])
  have working : s.worker ≠ .exited := by
    intro exited
    rw [exited] at removing
    cases removing
  have start : Making t p s.host.nextPtr k sock s :=
    ⟨⟨inv,run_owns run kind working,kind,run_unregistered run,inv.sound.visible p (.inl (.inl ⟨k,entry⟩)),.inl removing⟩,
      _,adding,rfl⟩
  generalize s.host.nextPtr = n at start ⊢
  constructor
  · rintro ⟨entered,_⟩
    refine Transition.along_of_good (fun _ _ _ outside making => making.step outside)
      (fun _ _ _ between making => making.breaks between) (fun _ _ _ orphaned => orphaned.step) start race ?_
    rintro ⟨_,c,found,loses⟩
    obtain rfl : c = .idle := Option.some.inj (found.symm.trans returned)
    exact loses entered
  · intro along
    obtain ⟨_,c,found,adds⟩ := Transition.exec_invariant (fun _ _ _ outside making => making.step outside) along start race
    obtain rfl : c = .idle := Option.some.inj (found.symm.trans returned)
    exact adds

/-- The worker is about to remove the connection of socket 7, and a thread has called `ConnectToRemote`. -/
def disconnectAndConnect : List Act :=
  [.connect 1 .connectToRemote [],.caller 1 (.fd 7),.caller 1 (.object .blank 0)] ++ List.replicate 4 (.caller 1 .done) ++
    [.disconnect 1 7,.caller 1 .done,.caller 1 .done,.epollPwait (.ok [(5,epollin)]),.worker,.connect 2 .connectToRemote []]

/-- The kernel gives the new socket the number of the one that has been closed. -/
def connectAgain : List Act := [.caller 2 (.fd 7),.caller 2 (.object .blank 0)]

theorem added_after_removal : ∃ s final, Run (.plain .tcpClient 3) disconnectAndConnect s ∧
    Transition.exec (race 2 7) s (List.replicate 5 .worker ++ connectAgain ++ List.replicate 4 (.caller 2 .done)) = some final ∧
    final.host.findSocketObject 7 = some s.host.nextPtr ∧ final.host.interest 7 = some (.object s.host.nextPtr) := by
  obtain ⟨s,run,adding,removing,along,found⟩ := run_reaches (.plain .tcpClient 3) disconnectAndConnect
    (fun s => s.callers[2]? = some (Caller.socket .connectToRemote []) ∧ s.inRemoval = some (0,7) ∧
      Transition.Along (race 2 7) CountsOutside s (List.replicate 5 .worker ++ connectAgain ++ List.replicate 4 (.caller 2 .done)) ∧
      (Transition.exec (race 2 7) s (List.replicate 5 .worker ++ connectAgain ++ List.replicate 4 (.caller 2 .done))).any
        (fun final => final.callers[2]? = some Caller.idle) = true) (by decide +kernel)
  obtain ⟨final,race,returned⟩ := Transition.exec_reaches (fun final : Sys => final.callers[2]? = some Caller.idle) found
  exact ⟨s,final,run,race,(added_unless_between_iff run adding removing race returned).mpr along⟩

/-- The thread looks for its socket after the close and before the erase. -/
theorem orphaned_by_removal : ∃ s final, Run (.plain .tcpClient 3) disconnectAndConnect s ∧
    s.callers[2]? = some (.socket .connectToRemote []) ∧ s.inRemoval = some (0,7) ∧
    Transition.exec (race 2 7) s (List.replicate 3 .worker ++ connectAgain ++ List.replicate 2 (.caller 2 .done) ++
      List.replicate 2 .worker) = some final ∧
    final.callers[2]? = some .idle ∧ final.inRemoval = none ∧
    ¬ (final.host.findSocketObject 7 = some s.host.nextPtr ∧ final.host.interest 7 = some (.object s.host.nextPtr)) := by
  obtain ⟨s,run,adding,removing,found⟩ := run_reaches (.plain .tcpClient 3) disconnectAndConnect
    (fun s => s.callers[2]? = some (Caller.socket .connectToRemote []) ∧ s.inRemoval = some (0,7) ∧
      (Transition.exec (race 2 7) s (List.replicate 3 .worker ++ connectAgain ++ List.replicate 2 (.caller 2 .done) ++
        List.replicate 2 .worker)).any (fun final => decide (final.callers[2]? = some Caller.idle ∧ final.inRemoval = none ∧
          final.host.findSocketObject 7 = none)) = true) (by decide +kernel)
  obtain ⟨final,race,returned,finished,missing⟩ := Transition.exec_reaches (fun final : Sys =>
    final.callers[2]? = some Caller.idle ∧ final.inRemoval = none ∧ final.host.findSocketObject 7 = none) found
  refine ⟨s,final,run,adding,removing,race,returned,finished,fun mine => ?_⟩
  simp [missing] at mine

end Sys

end LightServer
