import LightServer.OwnedFds
import LightServer.ServerCallbacks

/-! The sockets of a `TcpServer`: which of them are open, in the map and registered. The only
open ones with no entry are those that `HandleAccept` gives up when `fcntl` fails. -/
namespace LightServer

/-- `RemoveSocketObject` has dropped the registration of the object. -/
def Role.dropped (p : Ptr) : Role → Bool
  | .removing .deleteFD _ _ => false
  | .removing _ q _ => q = p
  | _ => false

/-- A registration that is not there is not lost with the fd. -/
theorem Table.closeFD_unregistered {T : Table} {fd : FD} (unregistered : T.registered fd = none) :
    T.closeFD fd = {T with isOpen := Function.update T.isOpen fd false} := by
  have same : Function.update T.registered fd none = T.registered := by rw [← unregistered,Function.update_eq_self]
  unfold Table.closeFD
  split
  · rw [Table.unregister,same]
  · rename_i shut
    rw [← (Bool.not_eq_true _).mp shut,Function.update_eq_self]

namespace View

/-- The fds that were open at the start, those that have been given up, and the objects that epoll
refused make up the difference between the open fds, the map and the registrations. -/
structure Accounted (base : FD → Bool) (leaked : List FD) (refused : List Ptr) (v : View) : Prop where
  listening : base v.table.listenSocket = true
  intact : v.table.isOpen v.table.listenSocket = true → ∀ fd, base fd = true → v.table.isOpen fd = true
  away : ∀ fd, base fd = true → v.table.find fd = none ∧ v.role ≠ .holding fd ∧ fd ∉ leaked
  apart : ∀ fd, fd ∈ leaked ∨ v.role = .holding fd → v.table.find fd = none ∧ ¬ (fd ∈ leaked ∧ v.role = .holding fd)
  opened : ∀ fd, base fd = false → (v.table.isOpen fd = true ↔
    (v.table.find fd).isSome ∧ v.role.closing fd = false ∨ v.role = .holding fd ∨ fd ∈ leaked)
  registered : ∀ fd p, v.table.registered fd = some p ↔
    v.table.find fd = some p ∧ v.role.dropped p = false ∧ p ∉ refused
  below : ∀ p ∈ refused, p < v.table.nextPtr

/-- What a step gives up: the fd in the worker's hands, or the registration of the new object. -/
structure Gives (v v' : View) (fds : List FD) (ptrs : List Ptr) : Prop where
  leak : ∀ fd, fd ∈ fds ↔ v.role = .holding fd ∧ v'.role = .free ∧ v'.table.isOpen fd = true
  refuse : ∀ p, p ∈ ptrs ↔ ∃ fd, v'.role = .announcing p fd ∧ v.role = .holding fd ∧ v'.table.registered fd ≠ some p

theorem started_accounted (config : Config) (server : config.kind = .tcpServer) :
    Accounted config.isOpen [] [] config.started.view := by
  refine ⟨(config.listen_open server).1,fun _ fd => id,?_,?_,?_,?_,?_⟩
  · simp [Sys.view,Host.table,Config.started,Host.findSocketObject,Worker.role]
  · simp [Sys.view,Config.started,Worker.role]
  · intro fd shut
    simp [Sys.view,Host.table,Config.started,Host.findSocketObject,Worker.role,shut]
  · intro fd p
    simp only [Sys.view,Host.table,Config.started,Config.interest,Host.findSocketObject]
    split_ifs <;> simp [PVOID.object?]
  · simp

variable {T T' : Table} {role role' : Role} {pending : List Ptr} {exited : Bool} {tasks : List Task}
  {base : FD → Bool} {leaked fds : List FD} {refused ptrs : List Ptr}

theorem Gives.none {v v' : View} (gives : Gives v v' fds ptrs) (keeps : ∀ fd, v.role ≠ .holding fd) : fds = [] ∧ ptrs = [] := by
  constructor
  · exact List.eq_nil_iff_forall_not_mem.mpr (fun fd member => keeps fd ((gives.leak fd).mp member).1)
  · refine List.eq_nil_iff_forall_not_mem.mpr (fun p member => ?_)
    obtain ⟨fd,_,holding,_⟩ := (gives.refuse p).mp member
    exact keeps fd holding

theorem Gives.held {v v' : View} (gives : Gives v v' fds ptrs) (back : v'.role ≠ .free) (silent : ∀ p fd, v'.role ≠ .announcing p fd) :
    fds = [] ∧ ptrs = [] := by
  constructor
  · exact List.eq_nil_iff_forall_not_mem.mpr (fun fd member => back ((gives.leak fd).mp member).2.1)
  · refine List.eq_nil_iff_forall_not_mem.mpr (fun p member => ?_)
    obtain ⟨fd,announces,_⟩ := (gives.refuse p).mp member
    exact silent p fd announces

/-- Where the table and the fds in hand stay as they are, the account does. -/
theorem Accounted.turn (accounted : Accounted base leaked refused ⟨T,role,pending,exited,tasks⟩) {pending' : List Ptr}
    {tasks' : List Task} {exited' : Bool} (listenSocket : T'.listenSocket = T.listenSocket) (isOpen : T'.isOpen = T.isOpen)
    (find : T'.find = T.find) (registered : T'.registered = T.registered) (nextPtr : T.nextPtr ≤ T'.nextPtr)
    (holding : ∀ fd, role' = .holding fd ↔ role = .holding fd) (closing : ∀ fd, role'.closing fd = role.closing fd)
    (dropped : ∀ p, role'.dropped p = role.dropped p) : Accounted base leaked refused ⟨T',role',pending',exited',tasks'⟩ := by
  obtain ⟨listening,intact,away,apart,opened,named,below⟩ := accounted
  dsimp only at listening intact away apart opened named below
  refine ⟨?_,?_,?_,?_,?_,?_,?_⟩ <;> dsimp only
  · exact listenSocket ▸ listening
  · rw [listenSocket,isOpen]
    exact intact
  · simpa only [find,ne_eq,holding] using away
  · simpa only [find,holding] using apart
  · simpa only [find,isOpen,holding,closing] using opened
  · simpa only [find,registered,dropped] using named
  · exact fun p member => (below p member).trans_le nextPtr

theorem Accounted.unregistered {fd : FD} (accounted : Accounted base leaked refused ⟨T,role,pending,exited,tasks⟩)
    (dropped : ∀ p, T.find fd = some p → role.dropped p = true) : T.registered fd = none := by
  cases found : T.registered fd with
  | none => rfl
  | some p =>
    obtain ⟨entry,kept,_⟩ := (accounted.registered fd p).mp found
    exact absurd (dropped p entry) ((Bool.not_eq_true _).mpr kept)

/-- The worker closes an fd that is not accounted for any more. -/
private theorem Accounted.closed {sock : SOCKET} (accounted : Accounted base leaked refused ⟨T,role,pending,exited,tasks⟩)
    (ours : base sock = false) (gone : (T.find sock).isSome → role'.closing sock = true) (kept : sock ∉ leaked) (free : role' ≠ .holding sock)
    (holding : ∀ fd, fd ≠ sock → (role' = .holding fd ↔ role = .holding fd))
    (closing : ∀ fd, fd ≠ sock → role'.closing fd = role.closing fd) (dropped : ∀ p, role'.dropped p = role.dropped p) :
    Accounted base leaked refused ⟨{T with isOpen := Function.update T.isOpen sock false},role',pending,exited,tasks⟩ := by
  obtain ⟨listening,intact,away,apart,opened,named,below⟩ := accounted
  dsimp only at listening intact away apart opened named below
  have other {fd : FD} (theirs : base fd = true) : fd ≠ sock := by
    rintro rfl
    simp [ours] at theirs
  refine ⟨listening,fun up fd theirs => ?_,fun fd theirs => ?_,fun fd hands => ?_,fun fd shut => ?_,?_,below⟩ <;> dsimp only
  · dsimp only at up
    rw [Function.update_of_ne (other listening)] at up
    rw [Function.update_of_ne (other theirs)]
    exact intact up fd theirs
  · rw [ne_eq,holding fd (other theirs)]
    exact away fd theirs
  · by_cases at_sock : fd = sock
    · subst at_sock
      rcases hands with leaked | held
      · exact absurd leaked kept
      · exact absurd held free
    · dsimp only at hands
      rw [holding fd at_sock] at hands ⊢
      exact apart fd hands
  · by_cases at_sock : fd = sock
    · subst at_sock
      simp only [Function.update_self,Bool.false_eq_true,free,kept,or_self,or_false,false_iff,not_and]
      intro found
      simp [gone found]
    · rw [Function.update_of_ne at_sock,holding fd at_sock,closing fd at_sock]
      exact opened fd shut
  · simpa only [dropped] using named

private theorem Accounted.leak {sock : SOCKET} (accounted : Accounted base leaked refused ⟨T,.holding sock,pending,false,tasks⟩)
    (gives : Gives ⟨T,.holding sock,pending,false,tasks⟩ ⟨T,.free,pending,false,tasks⟩ fds ptrs) :
    Accounted base (leaked ++ fds) (refused ++ ptrs) ⟨T,.free,pending,false,tasks⟩ := by
  obtain ⟨listening,intact,away,apart,opened,named,below⟩ := accounted
  dsimp only at listening intact away apart opened named below
  have ours : base sock = false := (Bool.not_eq_true _).mp (fun theirs => (away sock theirs).2.1 rfl)
  have up : T.isOpen sock = true := (opened sock ours).mpr (.inr (.inl rfl))
  have only (fd : FD) : fd ∈ fds ↔ fd = sock := by
    rw [gives.leak fd]
    constructor
    · rintro ⟨same,_⟩
      exact (Role.holding.inj same).symm
    · rintro rfl
      exact ⟨rfl,rfl,up⟩
  obtain rfl : ptrs = [] := List.eq_nil_iff_forall_not_mem.mpr (fun p member => by
    obtain ⟨fd,announces,_⟩ := (gives.refuse p).mp member
    cases announces)
  refine ⟨listening,intact,fun fd theirs => ?_,fun fd gone => ?_,fun fd shut => ?_,fun fd p => ?_,by simpa using below⟩ <;>
    dsimp only
  · obtain ⟨missing,other,kept⟩ := away fd theirs
    have differs : fd ≠ sock := by
      rintro rfl
      exact other rfl
    simp [missing,kept,only,differs]
  · rw [List.mem_append,only] at gone
    rcases gone with (old | rfl) | free
    · exact ⟨(apart fd (.inl old)).1,by simp⟩
    · exact ⟨(apart fd (.inr rfl)).1,by simp⟩
    · simp at free
  · rw [opened fd shut,List.mem_append,only]
    simp only [Role.closing,Role.holding.injEq,reduceCtorEq,false_or,and_true,eq_comm (a := sock)]
    tauto
  · simpa [Role.dropped] using named fd p

private theorem Accounted.accept {sock : SOCKET} (accounted : Accounted base leaked refused ⟨T,.accepting,pending,false,tasks⟩)
    (unused : T.isOpen sock = false) (up : T.isOpen T.listenSocket = true) :
    Accounted base leaked refused ⟨T.openFD sock,.holding sock,pending,false,tasks⟩ := by
  obtain ⟨listening,intact,away,apart,opened,named,below⟩ := accounted
  dsimp only at listening intact away apart opened named below
  have ours : base sock = false := (Bool.not_eq_true _).mp (fun theirs => by simp [intact up sock theirs] at unused)
  have fresh : T.find sock = none ∧ sock ∉ leaked := by
    have shut := (opened sock ours).not.mp (by simp [unused])
    simp only [Role.closing,and_true,reduceCtorEq,false_or,not_or] at shut
    simpa using shut
  refine ⟨listening,fun _ fd theirs => ?_,fun fd theirs => ?_,fun fd gone => ?_,fun fd shut => ?_,?_,below⟩ <;>
    dsimp only [Table.openFD]
  · have differs : fd ≠ sock := by
      rintro rfl
      simp [ours] at theirs
    rw [Function.update_of_ne differs]
    exact intact up fd theirs
  · have differs : sock ≠ fd := by
      rintro rfl
      simp [ours] at theirs
    simp [away fd theirs,differs]
  · rcases gone with old | held
    · refine ⟨(apart fd (.inl old)).1,fun both => fresh.2 ?_⟩
      rw [Role.holding.inj both.2]
      exact both.1
    · obtain rfl := Role.holding.inj held
      exact ⟨fresh.1,fun both => fresh.2 both.1⟩
  · by_cases at_sock : fd = sock
    · simp [at_sock]
    · rw [Function.update_of_ne at_sock,opened fd shut]
      simp [Role.closing,Ne.symm at_sock]
  · simpa [Role.dropped] using named

/-- `AddTcpSocket` enters the fd in the worker's hands; a registration that epoll refuses is given up. -/
private theorem Accounted.add {sock : SOCKET} {registered : FD → Option Ptr}
    (accounted : Accounted base leaked refused ⟨T,.holding sock,pending,false,tasks⟩) (fresh : ∀ fd, T.find fd ≠ some T.nextPtr)
    (absent : T.find sock = none)
    (registers : registered = T.registered ∨ registered = Function.update T.registered sock (some T.nextPtr))
    (gives : Gives ⟨T,.holding sock,pending,false,tasks⟩
      ⟨{T.alloc (sock,true,true) with find := Function.update T.find sock (some T.nextPtr), registered := registered},
        .announcing T.nextPtr sock,pending,false,tasks⟩ fds ptrs) :
    Accounted base (leaked ++ fds) (refused ++ ptrs)
      ⟨{T.alloc (sock,true,true) with find := Function.update T.find sock (some T.nextPtr), registered := registered},
        .announcing T.nextPtr sock,pending,false,tasks⟩ := by
  obtain rfl : fds = [] := List.eq_nil_iff_forall_not_mem.mpr (fun fd member => by
    cases ((gives.leak fd).mp member).2.1)
  have refusal (p : Ptr) : p ∈ ptrs ↔ p = T.nextPtr ∧ registered sock ≠ some T.nextPtr := by
    rw [gives.refuse p]
    constructor
    · rintro ⟨fd,announces,_,missing⟩
      obtain ⟨rfl,rfl⟩ := Role.announcing.inj announces
      exact ⟨rfl,missing⟩
    · rintro ⟨rfl,missing⟩
      exact ⟨sock,rfl,rfl,missing⟩
  obtain ⟨listening,intact,away,apart,opened,named,below⟩ := accounted
  dsimp only at listening intact away apart opened named below
  have ours : base sock = false := (Bool.not_eq_true _).mp (fun theirs => (away sock theirs).2.1 rfl)
  rw [List.append_nil]
  refine ⟨listening,intact,fun fd theirs => ?_,fun fd hands => ?_,fun fd shut => ?_,fun fd p => ?_,fun p member => ?_⟩ <;>
    dsimp only [Table.alloc,Table.setCore]
  · have differs : fd ≠ sock := by
      rintro rfl
      simp [ours] at theirs
    obtain ⟨missing,_,kept⟩ := away fd theirs
    simp [differs,missing,kept]
  · rcases hands with member | held
    · have differs : fd ≠ sock := by
        rintro rfl
        exact (apart fd (.inr rfl)).2 ⟨member,rfl⟩
      simpa [differs] using (apart fd (.inl member)).1
    · cases held
  · by_cases at_sock : fd = sock
    · subst at_sock
      simp [(opened fd shut).mpr (.inr (.inl rfl)),Role.closing]
    · rw [opened fd shut]
      simp [Role.closing,at_sock,Ne.symm at_sock]
  · have missing : T.registered sock = none := by
      cases old : T.registered sock with
      | none => rfl
      | some q =>
        have entry := ((named sock q).mp old).1
        simp [absent] at entry
    have unrefused : T.nextPtr ∉ refused := fun member => (below _ member).false
    by_cases at_sock : fd = sock
    · subst at_sock
      rw [Function.update_self,List.mem_append,refusal]
      rcases registers with rfl | rfl
      · refine iff_of_false (by simp [missing]) ?_
        rintro ⟨same,_,kept⟩
        exact kept (.inr ⟨(Option.some.inj same).symm,by simp [missing]⟩)
      · simp only [Function.update_self,Option.some.injEq,Role.dropped,true_and,ne_eq,not_true,and_false,or_false]
        constructor
        · rintro rfl
          exact ⟨rfl,unrefused⟩
        · exact And.left
    · have kept : registered fd = T.registered fd := by
        rcases registers with rfl | rfl
        · rfl
        · exact Function.update_of_ne at_sock _ _
      rw [kept,Function.update_of_ne at_sock,named fd p,List.mem_append,refusal]
      have old (found : T.find fd = some p) : p ≠ T.nextPtr := fun same => fresh fd (same ▸ found)
      simp only [Role.dropped,true_and]
      tauto
  · rcases List.mem_append.mp member with old | new
    · exact (below p old).trans (Nat.lt_succ_self _)
    · exact ((refusal p).mp new).1 ▸ Nat.lt_succ_self _

private theorem Accounted.unregister {p : Ptr} {sock : SOCKET}
    (accounted : Accounted base leaked refused ⟨T,.removing .deleteFD p sock,pending,false,tasks⟩) (found : T.find sock = some p)
    (alone : ∀ fd, T.find fd = some p → fd = sock) :
    Accounted base leaked refused ⟨T.unregister sock,.removing .close p sock,pending,false,tasks⟩ := by
  obtain ⟨listening,intact,away,apart,opened,named,below⟩ := accounted
  dsimp only at listening intact away apart opened named below
  refine ⟨listening,intact,by simpa [Table.unregister] using away,by simpa [Table.unregister] using apart,
    by simpa [Table.unregister,Role.closing] using opened,fun fd q => ?_,below⟩
  dsimp only [Table.unregister]
  by_cases at_sock : fd = sock
  · subst at_sock
    rw [Function.update_self,found]
    simp only [Role.dropped]
    constructor
    · simp
    · rintro ⟨same,other,_⟩
      simp [Option.some.inj same] at other
  · have differs (entry : T.find fd = some q) : p ≠ q := by
      rintro rfl
      exact at_sock (alone fd entry)
    rw [Function.update_of_ne at_sock,named fd q]
    simp only [Role.dropped,true_and,decide_eq_false_iff_not]
    tauto

private theorem Accounted.erase {p : Ptr} {sock : SOCKET}
    (accounted : Accounted base leaked refused ⟨T,.removing .erase p sock,pending,false,tasks⟩) (found : T.find sock = some p)
    (alone : ∀ fd, T.find fd = some p → fd = sock) :
    Accounted base leaked refused ⟨{T with find := Function.update T.find sock none},.free,pending,false,tasks⟩ := by
  have unregistered : T.registered sock = none := accounted.unregistered (fun q entry => by
    obtain rfl : p = q := Option.some.inj (found.symm.trans entry)
    simp [Role.dropped])
  obtain ⟨listening,intact,away,apart,opened,named,below⟩ := accounted
  dsimp only at listening intact away apart opened named below
  have kept : sock ∉ leaked := fun member => by simp [(apart sock (.inl member)).1] at found
  have less {fd : FD} (missing : T.find fd = none) : Function.update T.find sock none fd = none := by
    by_cases at_sock : fd = sock
    · simp [at_sock]
    · rwa [Function.update_of_ne at_sock]
  refine ⟨listening,intact,fun fd theirs => ?_,fun fd hands => ?_,fun fd shut => ?_,fun fd q => ?_,below⟩ <;> dsimp only
  · exact ⟨less (away fd theirs).1,by simp,(away fd theirs).2.2⟩
  · rcases hands with member | held
    · exact ⟨less (apart fd (.inl member)).1,by simp⟩
    · cases held
  · rw [opened fd shut]
    by_cases at_sock : fd = sock
    · subst at_sock
      simp [Role.closing,kept]
    · simp [Role.closing,at_sock,Ne.symm at_sock]
  · by_cases at_sock : fd = sock
    · subst at_sock
      simp [unregistered]
    · have differs (entry : T.find fd = some q) : p ≠ q := by
        rintro rfl
        exact at_sock (alone fd entry)
      rw [Function.update_of_ne at_sock,named fd q]
      simp only [Role.dropped,true_and,decide_eq_false_iff_not]
      tauto

theorem Accounted.work (accounted : Accounted base leaked refused ⟨T,role,pending,false,tasks⟩)
    (sound : Sound ⟨T,role,pending,false,tasks⟩) (entered : Entered ⟨T,role,pending,false,tasks⟩)
    (serving : Serving ⟨T,role,pending,false,tasks⟩) (work : Table.Work T role T' role')
    (gives : Gives ⟨T,role,pending,false,tasks⟩ ⟨T',role',pending,false,tasks⟩ fds ptrs) :
    Accounted base (leaked ++ fds) (refused ++ ptrs) ⟨T',role',pending,false,tasks⟩ := by
  have idle (keeps : ∀ fd, role ≠ .holding fd) (kept : Accounted base leaked refused ⟨T',role',pending,false,tasks⟩) :
      Accounted base (leaked ++ fds) (refused ++ ptrs) ⟨T',role',pending,false,tasks⟩ := by
    obtain ⟨rfl,rfl⟩ := gives.none keeps
    simpa using kept
  cases work with
  | rest _ _ settled later =>
    rcases later with rfl | rfl | ⟨p,sock,rfl,rfl⟩
    · by_cases keeps : ∀ fd, role' ≠ .holding fd
      · exact idle keeps accounted
      · obtain ⟨sock,rfl⟩ := not_forall_not.mp keeps
        obtain ⟨rfl,rfl⟩ := gives.held (by simp) (by simp)
        simpa using accounted
    · by_cases keeps : ∀ fd, role ≠ .holding fd
      · have inert (fd : FD) (p : Ptr) : role.closing fd = false ∧ role.dropped p = false := by
          cases role <;> simp_all [Role.closing,Role.dropped,Role.settled]
        exact idle keeps (accounted.turn rfl rfl rfl rfl le_rfl (by simp [keeps]) (fun fd => (inert fd 0).1.symm)
          (fun p => (inert 0 p).2.symm))
      · obtain ⟨sock,rfl⟩ := not_forall_not.mp keeps
        exact accounted.leak gives
    · exact idle (by simp) (accounted.turn rfl rfl rfl rfl le_rfl (by simp) (by simp [Role.closing]) (by simp [Role.dropped]))
  | handle p ready => exact idle (by simp) (accounted.turn rfl rfl rfl rfl le_rfl (by simp) (by simp [Role.closing]) (by simp [Role.dropped]))
  | connect p sock _ kind core later => simp [show T.kind = .tcpServer from serving.kind] at kind
  | startRead p sock connected core =>
    exact idle (by simp) (accounted.turn rfl rfl rfl rfl le_rfl (by simp) (by simp [Role.closing]) (by simp [Role.dropped]))
  | doRead p sock => exact idle (by simp) (accounted.turn rfl rfl rfl rfl le_rfl (by simp) (by simp) (by simp))
  | listen kind => exact idle (by simp) (accounted.turn rfl rfl rfl rfl le_rfl (by simp) (by simp [Role.closing]) (by simp [Role.dropped]))
  | accept sock nonneg unused up => exact idle (by simp) (accounted.accept unused up)
  | add sock registered absent registers =>
    have fresh (fd : FD) : T.find fd ≠ some T.nextPtr := fun found =>
      (sound.visible T.nextPtr (.inl (.inl ⟨fd,found⟩))).false
    exact accounted.add fresh absent registers gives
  | leak sock core present =>
    have missing : T.find sock = none := (accounted.apart sock (.inr rfl)).1
    simp [missing] at present
  | closeAccepted sock =>
    obtain ⟨missing,once⟩ : T.find sock = none ∧ ¬ (sock ∈ leaked ∧ _) := accounted.apart sock (.inr rfl)
    have unregistered : T.registered sock = none := accounted.unregistered (fun p found => by simp [missing] at found)
    have shut : (T.closeFD sock).isOpen sock = false := by rw [Table.isOpen_closeFD,Function.update_self]
    obtain rfl : fds = [] := List.eq_nil_iff_forall_not_mem.mpr (fun fd member => by
      obtain ⟨held,_,up⟩ := (gives.leak fd).mp member
      obtain rfl := Role.holding.inj held
      simp [shut] at up)
    obtain rfl : ptrs = [] := List.eq_nil_iff_forall_not_mem.mpr (fun p member => by
      obtain ⟨fd,announces,_⟩ := (gives.refuse p).mp member
      cases announces)
    rw [List.append_nil,List.append_nil,Table.closeFD_unregistered unregistered]
    have ours : base sock = false := (Bool.not_eq_true _).mp (fun theirs => (accounted.away sock theirs).2.1 rfl)
    exact accounted.closed ours (by simp [missing]) (fun member => once ⟨member,rfl⟩) (by simp)
      (fun fd differs => by simp [Ne.symm differs]) (fun _ _ => rfl) (fun _ => rfl)
  | announce p sock => exact idle (by simp) (accounted.turn rfl rfl rfl rfl le_rfl (by simp) (by simp [Role.closing]) (by simp [Role.dropped]))
  | disconnect fd p sock connected found core =>
    exact idle (by simp) (accounted.turn rfl rfl rfl rfl le_rfl (by simp) (by simp [Role.closing]) (by simp [Role.dropped]))
  | removeFD p sock =>
    have found : T.find sock = some p := entered.removing _ _ _ rfl
    exact idle (by simp) (accounted.unregister found (fun fd entry => entered.unique fd sock p entry found))
  | removeClose p sock =>
    have found : T.find sock = some p := entered.removing _ _ _ rfl
    have unregistered : T.registered sock = none := accounted.unregistered (fun q entry => by
      obtain rfl : p = q := Option.some.inj (found.symm.trans entry)
      simp [Role.dropped])
    have ours : base sock = false := (Bool.not_eq_true _).mp (fun theirs => by
      have missing : T.find sock = none := (accounted.away sock theirs).1
      simp [missing] at found)
    have kept : sock ∉ leaked := fun member => by
      have missing : T.find sock = none := (accounted.apart sock (.inl member)).1
      simp [missing] at found
    refine idle (by simp) ?_
    rw [Table.closeFD_unregistered unregistered]
    exact accounted.closed ours (by simp [Role.closing]) kept (by simp) (by simp)
      (fun fd differs => by simp [Role.closing,Ne.symm differs]) (fun q => by simp [Role.dropped])
  | removeDelete p sock =>
    exact idle (by simp) (accounted.turn rfl rfl rfl rfl le_rfl (by simp) (by simp [Role.closing]) (by simp [Role.dropped]))
  | removeErase p sock =>
    have found : T.find sock = some p := entered.removing _ _ _ rfl
    exact idle (by simp) (accounted.erase found (fun fd entry => entered.unique fd sock p entry found))

theorem Accounted.call (accounted : Accounted base leaked refused ⟨T,role,pending,false,tasks⟩)
    (serving : Serving ⟨T,role,pending,false,tasks⟩) {t : Nat} {task task' : Task} (found : tasks[t]? = some task)
    (call : Table.Call T false task T' task') : Accounted base leaked refused ⟨T',role,pending,false,tasks.set t task'⟩ := by
  have alone : task = .other := serving.tasks task (List.mem_of_getElem? found)
  cases call with
  | rest => exact accounted.turn rfl rfl rfl rfl le_rfl (by simp) (by simp) (by simp)
  | connect kind => exact absurd serving.kind kind
  | closeListenSocket =>
    have unregistered : T.registered T.listenSocket = none := accounted.unregistered (fun p found => by
      have missing : T.find T.listenSocket = none := (accounted.away _ accounted.listening).1
      simp [missing] at found)
    rw [Table.closeFD_unregistered unregistered]
    obtain ⟨listening,intact,away,apart,opened,named,below⟩ := accounted
    dsimp only at listening intact away apart opened named below
    refine ⟨listening,fun up => ?_,away,apart,fun fd shut => ?_,named,below⟩
    · simp at up
    · have differs : fd ≠ T.listenSocket := by
        rintro rfl
        simp [listening] at shut
      dsimp only
      rw [Function.update_of_ne differs]
      exact opened fd shut
  | release core registered finished => cases finished
  | closeFds T' finished => cases finished
  | _ => cases alone

/-- One step of the process keeps the account, as long as the worker has not left its loop. -/
theorem Step.accounted {v v' : View} (step : Step v v') (sound : v.Sound) (entered : v.Entered) (serving : v.Serving)
    (working : v'.exited = false) (gives : Gives v v' fds ptrs) (accounted : Accounted base leaked refused v) :
    Accounted base (leaked ++ fds) (refused ++ ptrs) v' := by
  have nothing (idle : (∀ fd, v.role ≠ .holding fd) ∨ v'.role = v.role) (kept : Accounted base leaked refused v') :
      Accounted base (leaked ++ fds) (refused ++ ptrs) v' := by
    have neither : fds = [] ∧ ptrs = [] := by
      rcases idle with keeps | same
      · exact gives.none keeps
      · by_cases keeps : ∀ fd, v.role ≠ .holding fd
        · exact gives.none keeps
        · obtain ⟨sock,held⟩ := not_forall_not.mp keeps
          exact gives.held (by simp [same,held]) (by simp [same,held])
    simpa [neither.1,neither.2] using kept
  cases step with
  | stutter => exact nothing (.inr rfl) accounted
  | deliver T pending tasks told =>
    exact nothing (.inr rfl) (accounted.turn rfl rfl rfl rfl le_rfl (by simp) (by simp) (by simp))
  | event T p pending tasks =>
    exact nothing (.inl (by simp)) (accounted.turn rfl rfl rfl rfl le_rfl (by simp) (by simp [Role.closing]) (by simp [Role.dropped]))
  | command T fd p pending tasks found =>
    exact nothing (.inl (by simp)) (accounted.turn rfl rfl rfl rfl le_rfl (by simp) (by simp [Role.closing]) (by simp [Role.dropped]))
  | exit T tasks => cases working
  | work T role pending tasks T' role' work => exact accounted.work sound entered serving work gives
  | call T role pending exited tasks t task T' task' found call =>
    obtain rfl : exited = false := working
    exact nothing (.inr rfl) (accounted.call serving found call)

theorem Step.holding {v v' : View} (step : Step v v') (nonneg : ∀ sock, v.role = .holding sock → 0 ≤ sock) :
    ∀ sock, v'.role = .holding sock → 0 ≤ sock := by
  intro sock held
  cases step with
  | work T role pending tasks T' role' work =>
    cases work with
    | rest _ _ settled later =>
      rcases later with rfl | rfl | ⟨p,k,_,rfl⟩
      · exact nonneg sock held
      · cases held
      · cases held
    | connect p k _ kind core later => rcases later with rfl | rfl <;> cases held
    | accept k nonneg' =>
      obtain rfl := Role.holding.inj held
      exact nonneg'
    | leak k core present => exact nonneg sock held
    | _ => cases held
  | stutter => exact nonneg sock held
  | call => exact nonneg sock held
  | _ => cases held

/-- An entry of the map is a valid object, unless it is being removed. -/
def Current (v : View) : Prop :=
  ∀ sock p, v.table.find sock = some p →
    (∃ connected, v.table.core p = some (sock,true,connected)) ∨ ∃ stage, v.role = .removing stage p sock

theorem started_current (config : Config) : Current config.started.view := by
  intro sock p found
  simp [Sys.view,Host.table,Config.started,Host.findSocketObject] at found

private theorem Current.work (current : Current ⟨T,role,pending,false,tasks⟩) (sound : Sound ⟨T,role,pending,false,tasks⟩)
    (entered : Entered ⟨T,role,pending,false,tasks⟩) (serving : Serving ⟨T,role,pending,false,tasks⟩)
    (work : Table.Work T role T' role') : Current ⟨T',role',pending,false,tasks⟩ := by
  have same (find : T'.find = T.find) (core : T'.core = T.core) (kept : ∀ stage p sock, role = .removing stage p sock →
      ∃ stage, role' = .removing stage p sock) : Current ⟨T',role',pending,false,tasks⟩ := by
    intro sock p found
    dsimp only at found ⊢
    rw [find] at found
    rw [core]
    refine (current sock p found).imp_right ?_
    rintro ⟨stage,removes⟩
    exact kept stage p sock removes
  have closed (closes : T.Closes T') (kept : ∀ stage p sock, role = .removing stage p sock → ∃ stage, role' = .removing stage p sock) :
      Current ⟨T',role',pending,false,tasks⟩ := by
    obtain ⟨_,_,rfl,_,_⟩ := closes
    exact same rfl rfl kept
  have fresh {sock : SOCKET} {p : Ptr} (found : T.find sock = some p) : p ≠ T.nextPtr :=
    (sound.visible p (.inl (.inl ⟨sock,found⟩))).ne
  cases work with
  | rest _ _ settled later =>
    refine same rfl rfl (fun stage p sock removes => ?_)
    subst removes
    simp [Role.settled] at settled
  | handle p ready => exact same rfl rfl (by simp)
  | connect p sock _ kind core later => simp [show T.kind = .tcpServer from serving.kind] at kind
  | startRead p sock connected core => exact same rfl rfl (by simp)
  | doRead p sock => exact same rfl rfl (by simp)
  | listen kind => exact same rfl rfl (by simp)
  | accept sock nonneg unused listening => exact same rfl rfl (by simp)
  | add sock registered absent registers =>
    intro k p found
    left
    by_cases at_sock : k = sock
    · obtain rfl : T.nextPtr = p := by simpa [at_sock] using found
      exact ⟨true,by simp [Table.alloc,Table.setCore,at_sock]⟩
    · have old : T.find k = some p := by simpa [at_sock] using found
      obtain ⟨connected,core⟩ := (current k p old).resolve_right (by simp)
      exact ⟨connected,by simpa [Table.alloc,Table.setCore,fresh old] using core⟩
  | leak sock core present =>
    intro k p found
    obtain ⟨connected,old⟩ := (current k p found).resolve_right (by simp)
    exact .inl ⟨connected,by simpa [Table.alloc,Table.setCore,fresh found] using old⟩
  | closeAccepted sock => exact closed (T.closes_closeFD sock) (by simp)
  | announce p sock => exact same rfl rfl (by simp)
  | disconnect fd p sock connected found core =>
    intro k q entry
    obtain ⟨connected',old⟩ := (current k q entry).resolve_right (by simp)
    by_cases removed : q = p
    · subst removed
      obtain ⟨rfl,_⟩ : sock = k ∧ _ := by simpa [core] using old
      exact .inr ⟨.deleteFD,rfl⟩
    · exact .inl ⟨connected',by simpa [Table.record,Table.setCore,removed] using old⟩
  | removeFD p sock => exact same rfl rfl (fun _ q k removes => ⟨.close,by simpa using (Role.removing.inj removes).2⟩)
  | removeClose p sock => exact closed (T.closes_closeFD sock) (fun _ q k removes => ⟨.delete,by simpa using (Role.removing.inj removes).2⟩)
  | removeDelete p sock =>
    intro k q entry
    rcases current k q entry with ⟨connected,core⟩ | ⟨stage,removes⟩
    · by_cases removed : q = p
      · subst removed
        have found : T.find sock = some q := entered.removing _ _ _ rfl
        obtain rfl : k = sock := entered.unique k sock q entry found
        exact .inr ⟨.erase,rfl⟩
      · exact .inl ⟨connected,by simpa [Table.setCore,removed] using core⟩
    · obtain ⟨_,rfl,rfl⟩ := Role.removing.inj removes
      exact .inr ⟨.erase,rfl⟩
  | removeErase p sock =>
    intro k q entry
    have differs : k ≠ sock := by
      rintro rfl
      simp at entry
    have old : T.find k = some q := by simpa [differs] using entry
    refine .inl ((current k q old).resolve_right ?_)
    rintro ⟨stage,removes⟩
    exact differs (Role.removing.inj removes).2.2.symm

private theorem Current.call (current : Current ⟨T,role,pending,exited,tasks⟩) (serving : Serving ⟨T,role,pending,exited,tasks⟩)
    {t : Nat} {task task' : Task} (found : tasks[t]? = some task) (call : Table.Call T exited task T' task') :
    Current ⟨T',role,pending,exited,tasks.set t task'⟩ := by
  have alone : task = .other := serving.tasks task (List.mem_of_getElem? found)
  have closed (closes : T.Closes T') : Current ⟨T',role,pending,exited,tasks.set t task'⟩ := by
    obtain ⟨_,_,rfl,_,_⟩ := closes
    exact current
  cases call with
  | rest => exact current
  | connect kind => exact absurd serving.kind kind
  | closeListenSocket => exact closed (T.closes_closeFD T.listenSocket)
  | release core registered finished fewer unregistered =>
    intro sock p entry
    cases entry
  | closeFds T' finished closes => exact closed closes
  | _ => cases alone

theorem Step.current {v v' : View} (step : Step v v') (sound : v.Sound) (entered : v.Entered) (serving : v.Serving)
    (current : v.Current) : v'.Current := by
  cases step with
  | work T role pending tasks T' role' work => exact current.work sound entered serving work
  | call T role pending exited tasks t task T' task' found call => exact current.call serving found call
  | event T p pending tasks => exact fun sock q entry => .inl ((current sock q entry).resolve_right (by simp))
  | command T fd p pending tasks found => exact fun sock q entry => .inl ((current sock q entry).resolve_right (by simp))
  | _ => exact current

end View

end LightServer
