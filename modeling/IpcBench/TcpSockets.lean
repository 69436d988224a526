import IpcBench.Descriptors
import Mathlib.Data.List.TakeWhile

/-!
How the tcp server gets a listening socket and the tcp client a connected one: the search
through the addresses that `getaddrinfo` found, `create_socket`, and the loops of the two
`main` functions that call it until it returns a descriptor.
-/

namespace IpcBench

open Descriptors

/-- `while (descriptor == -1) descriptor = create_socket();` with a tape of the outcomes of
each call. A process that `throw` or `exit` ends has an error. -/
def awaitSocket {Address Outcomes : Type}
    (createSocket : Outcomes → Table Address → Except String (Int × Table Address)) :
    List Outcomes → Int → Table Address → Except String (Int × Table Address)
  | [], descriptor, table => .ok (descriptor, table)
  | outcomes :: later, descriptor, table =>
      if descriptor = -1 then
        match createSocket outcomes table with
        | .error message => .error message
        | .ok (descriptor, table) => awaitSocket createSocket later descriptor table
      else .ok (descriptor, table)

theorem awaitSocket_failed {Address Outcomes : Type}
    {createSocket : Outcomes → Table Address → Except String (Int × Table Address)}
    {outcomes : Outcomes} {table next : Table Address}
    (failed : createSocket outcomes table = .ok (-1, next)) (later : List Outcomes) :
    awaitSocket createSocket (outcomes :: later) (-1) table =
      awaitSocket createSocket later (-1) next := by
  simp [awaitSocket, failed]

def getServerInformation {Info : Type} (found : Except String (List Info)) :
    Except String (List Info) :=
  found.mapError fun reason => "getaddrinfo failed: " ++ reason

theorem find_cons_none {Item : Type} {accepts : Item → Bool} {first : Item} {rest : List Item}
    (none : (first :: rest).find? accepts = none) :
    accepts first = false ∧ rest.find? accepts = .none := by
  simp only [List.find?_eq_none, List.mem_cons, forall_eq_or_imp, Bool.not_eq_true] at none
  obtain ⟨failed, others⟩ := none
  exact ⟨failed, by simpa using others⟩

theorem dropWhile_weaken {Item : Type} {narrow wide : Item → Bool} {items rest : List Item}
    {item : Item} (drops : items.dropWhile narrow = item :: rest)
    (implies : ∀ other, narrow other = true → wide other = true) (stops : wide item = false) :
    items.dropWhile wide = item :: rest := by
  induction items with
  | nil => cases drops
  | cons first later ih =>
      by_cases skipped : narrow first = true
      · rw [List.dropWhile_cons_of_pos skipped] at drops
        rw [List.dropWhile_cons_of_pos (implies first skipped)]
        exact ih drops
      · rw [List.dropWhile_cons_of_neg skipped] at drops
        cases drops
        apply List.dropWhile_cons_of_neg
        simp [stops]

namespace TcpServer

structure AddressInfo (Address : Type) where
  address : Address
  socket : Bool
  setsockopt : Bool
  bind : Bool
deriving DecidableEq, Repr

variable {Address : Type}

def handleBlocking (table : Table Address) (descriptor : Int) (succeeds : Bool) :
    Except String Unit :=
  if table.option descriptor succeeds = -1 then .error "Error reclaiming socket" else .ok ()

/-- The result is the list from the valid address on, empty for NULL, and what the loop
leaves in `*socket_descriptor`. -/
def getAddress (table : Table Address) (socketDescriptor : Int) :
    List (AddressInfo Address) →
      Except String (List (AddressInfo Address) × Int × Table Address)
  | [] => .ok ([], socketDescriptor, table)
  | info :: rest =>
      let (descriptor, opened) := table.socket info.socket
      if descriptor = -1 then getAddress opened descriptor rest
      else
        match handleBlocking opened descriptor info.setsockopt with
        | .error message => .error message
        | .ok () =>
            let (returnCode, bound) := opened.bind descriptor info.address info.bind
            let kept := if returnCode = 1 then bound.close descriptor else bound
            .ok (info :: rest, descriptor, kept)

structure Outcomes (Address : Type) where
  serverInfo : Except String (List (AddressInfo Address))
  uninitialised : Int
  listen : Bool

def createSocket (outcomes : Outcomes Address) (table : Table Address) :
    Except String (Int × Table Address) :=
  match getServerInformation outcomes.serverInfo with
  | .error message => .error message
  | .ok serverInfo =>
      match getAddress table outcomes.uninitialised serverInfo with
      | .error message => .error message
      | .ok (validAddress, descriptor, table) =>
          if validAddress.isEmpty then .ok (-1, table)
          else
            let (returnCode, listening) := table.listen descriptor outcomes.listen
            if returnCode = 1 then .ok (-1, listening) else .ok (descriptor, listening)

def AddressInfo.usable (info : AddressInfo Address) : Bool :=
  info.socket && info.bind

structure ListensBound (serverInfo : List (AddressInfo Address)) (uninitialised : Int)
    (listen : Bool) (table : Table Address) : Prop where
  first : ∀ found descriptor next,
    getAddress table uninitialised serverInfo = .ok (found, descriptor, next) →
      found = serverInfo.dropWhile (fun info => !info.usable)
  bound : ∀ info rest descriptor next,
    getAddress table uninitialised serverInfo = .ok (info :: rest, descriptor, next) →
      ∃ socket, next.lookup descriptor = some (.socket socket) ∧ socket.bound = some info.address
  closed : ∀ found descriptor next,
    getAddress table uninitialised serverInfo = .ok (found, descriptor, next) →
      ∀ other, found = [] ∨ other ≠ descriptor → next.lookup other = table.lookup other
  listening : ∀ descriptor next,
    createSocket ⟨.ok serverInfo, uninitialised, listen⟩ table = .ok (descriptor, next) →
      descriptor ≠ -1 → ∃ socket, next.lookup descriptor = some (.socket socket) ∧
        socket.bound ≠ none ∧ socket.listening = true
  retries : ∀ result, createSocket ⟨.ok serverInfo, uninitialised, listen⟩ table = .ok result →
    (∀ info ∈ serverInfo, info.usable = false) ∨ listen = false →
      ∀ later, awaitSocket createSocket (⟨.ok serverInfo, uninitialised, listen⟩ :: later) (-1)
        table = awaitSocket createSocket later (-1) result.2

def FirstServes (serverInfo : List (AddressInfo Address)) (listen : Bool) : Prop :=
  ∀ info, serverInfo.find? (fun info => info.socket) = some info → info.setsockopt = true →
    info.bind = true ∧ listen = true

variable {serverInfo : List (AddressInfo Address)} {uninitialised : Int} {listen : Bool}
  {table : Table Address} {info : AddressInfo Address}

theorem getAddress_unopened (none : serverInfo.find? (fun info => info.socket) = none) :
    ∃ descriptor, getAddress table uninitialised serverInfo = .ok ([], descriptor, table) := by
  induction serverInfo generalizing uninitialised with
  | nil => exact ⟨uninitialised, rfl⟩
  | cons first rest ih =>
      obtain ⟨failed, later⟩ := find_cons_none none
      obtain ⟨descriptor, found⟩ : ∃ descriptor, getAddress table (-1) rest =
          .ok ([], descriptor, table) := ih later
      refine ⟨descriptor, ?_⟩
      simpa [getAddress, failed, Table.socket] using found

/-- The search is over at the first address that gets a socket, whatever `bind` returns. -/
theorem getAddress_opened (opened : serverInfo.find? (fun info => info.socket) = some info) :
    ∃ rest descriptor new, serverInfo.dropWhile (fun info => !info.socket) = info :: rest ∧
      table.socket true = (descriptor, new) ∧
      getAddress table uninitialised serverInfo =
        if info.setsockopt = true then
          .ok (info :: rest, descriptor, (new.bind descriptor info.address info.bind).2)
        else .error "Error reclaiming socket" := by
  induction serverInfo generalizing uninitialised with
  | nil => cases opened
  | cons first rest ih =>
      by_cases succeeds : first.socket = true
      · rw [List.find?_cons_of_pos (by simpa using succeeds)] at opened
        cases opened
        cases call : table.socket true with
        | mk descriptor new =>
            obtain ⟨nonneg, _, fresh, _⟩ := Table.socket_true call
            refine ⟨rest, descriptor, new, by simp [succeeds], rfl, ?_⟩
            have valid : descriptor ≠ -1 := by omega
            have reclaimed := Table.option_eq info.setsockopt fresh
            cases reuses : info.setsockopt with
            | false =>
                rw [reuses] at reclaimed
                simp [getAddress, succeeds, call, valid, handleBlocking, reclaimed, reuses]
            | true =>
                rw [reuses] at reclaimed
                have codes : (new.bind descriptor info.address info.bind).1 ≠ 1 := by
                  cases info.bind <;> simp [Table.bind, Table.change, fresh]
                simp [getAddress, succeeds, call, valid, handleBlocking, reclaimed, reuses, codes]
      · have fails : first.socket = false := by simpa using succeeds
        rw [List.find?_cons_of_neg (by simp [fails])] at opened
        obtain ⟨later, descriptor, new, drops, call, found⟩ := @ih (-1) opened
        refine ⟨later, descriptor, new, by simpa [fails] using drops, call, ?_⟩
        simpa [getAddress, fails, Table.socket] using found

theorem bind_fresh {descriptor : Int} {new : Table Address} (address : Address) (succeeds : Bool)
    (call : table.socket true = (descriptor, new)) :
    ∃ socket, (new.bind descriptor address succeeds).2.lookup descriptor = some (.socket socket) ∧
      socket.bound = (if succeeds = true then some address else none) ∧
      socket.listening = false ∧
      ∀ other, other ≠ descriptor →
        (new.bind descriptor address succeeds).2.lookup other = table.lookup other := by
  obtain ⟨_, _, fresh, others⟩ := Table.socket_true call
  cases succeeds with
  | false =>
      rw [Table.bind, Table.change_fails]
      exact ⟨.fresh, fresh, rfl, rfl, others⟩
  | true =>
      obtain ⟨next, changed, found, kept⟩ := Table.change_succeeds
        (fun socket => { socket with bound := some address }) fresh
      rw [Table.bind, changed]
      refine ⟨_, found, rfl, rfl, ?_⟩
      intro other different
      rw [kept other different, others other different]

theorem createSocket_unfound {descriptor : Int} {next : Table Address}
    (search : getAddress table uninitialised serverInfo = .ok ([], descriptor, next)) :
    createSocket ⟨.ok serverInfo, uninitialised, listen⟩ table = .ok (-1, next) := by
  simp [createSocket, getServerInformation, Except.mapError, search]

/-- `listen` never returns 1, so that its outcome does not matter to the result. -/
theorem createSocket_found {rest : List (AddressInfo Address)} {descriptor : Int}
    {next : Table Address} {socket : Socket Address}
    (search : getAddress table uninitialised serverInfo = .ok (info :: rest, descriptor, next))
    (found : next.lookup descriptor = some (.socket socket)) :
    createSocket ⟨.ok serverInfo, uninitialised, listen⟩ table =
      .ok (descriptor, (next.listen descriptor listen).2) := by
  have codes : (next.listen descriptor listen).1 ≠ 1 := by
    cases listen <;> simp [Table.listen, Table.change, found]
  simp [createSocket, getServerInformation, Except.mapError, search, codes]

theorem ListensBound.firstServes
    (promise : ListensBound serverInfo uninitialised listen table) :
    FirstServes serverInfo listen := by
  intro info opened reuses
  obtain ⟨rest, descriptor, new, _, call, search⟩ :=
    @getAddress_opened _ serverInfo uninitialised table info opened
  rw [if_pos reuses] at search
  obtain ⟨socket, found, bound, deaf, _⟩ := bind_fresh info.address info.bind call
  obtain ⟨nonneg, _⟩ := Table.lookup_nonneg found
  constructor
  · obtain ⟨same, foundSame, boundTo⟩ := promise.bound _ _ _ _ search
    rw [found] at foundSame
    cases foundSame
    cases binds : info.bind with
    | true => rfl
    | false =>
        rw [boundTo, binds] at bound
        cases bound
  · cases listens : listen with
    | true => rfl
    | false =>
        have returned : createSocket ⟨.ok serverInfo, uninitialised, listen⟩ table =
            .ok (descriptor, _) := createSocket_found search found
        obtain ⟨same, foundSame, _, hears⟩ := promise.listening _ _ returned (by omega)
        rw [listens, Table.listen, Table.change_fails, found] at foundSame
        cases foundSame
        rw [deaf] at hears
        cases hears

theorem listensBound_unopened (none : serverInfo.find? (fun info => info.socket) = none) :
    ListensBound serverInfo uninitialised listen table := by
  obtain ⟨last, search⟩ := @getAddress_unopened _ serverInfo uninitialised table none
  have returned : createSocket ⟨.ok serverInfo, uninitialised, listen⟩ table = .ok (-1, table) :=
    createSocket_unfound search
  have unusable : ∀ info ∈ serverInfo, (!info.usable) = true := by
    intro info member
    have closed := List.find?_eq_none.mp none info member
    simp_all [AddressInfo.usable]
  constructor
  · intro found descriptor next result
    rw [search] at result
    cases result
    exact (List.dropWhile_eq_nil_iff.mpr unusable).symm
  · intro info rest descriptor next result
    rw [search] at result
    cases result
  · intro found descriptor next result other _
    rw [search] at result
    cases result
    rfl
  · intro descriptor next result valid
    rw [returned] at result
    cases result
    exact absurd rfl valid
  · intro result call _ later
    rw [returned] at call
    cases call
    exact awaitSocket_failed returned later

theorem listensBound_opened (opened : serverInfo.find? (fun info => info.socket) = some info)
    (serves : info.setsockopt = true → info.bind = true ∧ listen = true) :
    ListensBound serverInfo uninitialised listen table := by
  obtain ⟨rest, descriptor, new, drops, call, search⟩ :=
    @getAddress_opened _ serverInfo uninitialised table info opened
  cases reuses : info.setsockopt with
  | false =>
      rw [reuses] at search
      have ends : createSocket ⟨.ok serverInfo, uninitialised, listen⟩ table =
          .error "Error reclaiming socket" := by
        simp [createSocket, getServerInformation, Except.mapError, search]
      constructor <;> simp [search, ends]
  | true =>
      obtain ⟨binds, listens⟩ := serves reuses
      subst listens
      rw [if_pos reuses] at search
      obtain ⟨socket, found, bound, _, others⟩ := bind_fresh info.address info.bind call
      rw [if_pos binds] at bound
      have takes : info.socket = true := by simpa using List.find?_some opened
      have usable : info.usable = true := by simp [AddressInfo.usable, takes, binds]
      have returned : createSocket ⟨.ok serverInfo, uninitialised, true⟩ table =
          .ok (descriptor, _) := createSocket_found search found
      obtain ⟨next, hears, listening, _⟩ := Table.change_succeeds
        (fun socket => { socket with listening := true }) found
      constructor
      · intro found' descriptor' next' result
        rw [search] at result
        cases result
        refine (dropWhile_weaken drops ?_ (by simp [usable])).symm
        intro other closed
        simp_all [AddressInfo.usable]
      · intro info' rest' descriptor' next' result
        rw [search] at result
        cases result
        exact ⟨socket, found, bound⟩
      · intro found' descriptor' next' result other different
        rw [search] at result
        cases result
        exact others other (different.resolve_left (List.cons_ne_nil _ _))
      · intro descriptor' next' result _
        rw [returned] at result
        cases result
        rw [Table.listen, hears]
        exact ⟨_, listening, by simp [bound], rfl⟩
      · intro result call failed later
        rcases failed with unusable | deaf
        · have member := List.mem_of_find?_eq_some opened
          rw [unusable info member] at usable
          cases usable
        · cases deaf

/-- The server's search and its retry loop keep what they promise just when the first
address that gets a socket gets it bound and listening. -/
theorem listens_bound_iff (serverInfo : List (AddressInfo Address)) (uninitialised : Int)
    (listen : Bool) (table : Table Address) :
    ListensBound serverInfo uninitialised listen table ↔ FirstServes serverInfo listen := by
  constructor
  · intro promise
    exact promise.firstServes
  · intro serves
    cases opened : serverInfo.find? (fun info => info.socket) with
    | none => exact listensBound_unopened opened
    | some info => exact listensBound_opened opened (serves info opened)

/-- The first of two addresses cannot be bound: the search ends there all the same. -/
theorem listens_unbound :
    getAddress [] 0 [⟨1, true, true, false⟩, ⟨2, true, true, true⟩] =
      .ok ([⟨1, true, true, false⟩, ⟨2, true, true, true⟩], 0, [some (.socket .fresh)]) ∧
    ¬ListensBound [⟨1, true, true, false⟩, ⟨2, true, true, true⟩] 0 true ([] : Table Nat) := by
  refine ⟨rfl, ?_⟩
  intro promise
  have binds := (promise.firstServes ⟨1, true, true, false⟩ rfl rfl).1
  cases binds

end TcpServer

namespace TcpClient

structure AddressInfo (Address : Type) where
  address : Address
  socket : Bool
  connect : Bool
deriving DecidableEq, Repr

variable {Address : Type}

/-- Returns the connected descriptor or -1. -/
def getAddress (table : Table Address) (socketDescriptor : Int) :
    List (AddressInfo Address) → Int × Table Address
  | [] => (-1, table.close socketDescriptor)
  | info :: rest =>
      let (descriptor, opened) := table.socket info.socket
      if descriptor = -1 then getAddress opened descriptor rest
      else
        let (returnCode, connected) := opened.connect descriptor info.address info.connect
        if returnCode = -1 then (-1, connected.close descriptor) else (descriptor, connected)

structure SetupOutcomes where
  sendBuffer : Bool
  receiveBuffer : Bool
  getFlags : Bool
  setFlags : Bool
deriving DecidableEq, Repr

def setSocketBufferSize (table : Table Address) (descriptor : Int) (succeeds : Bool) :
    Except String Unit :=
  if table.option descriptor succeeds = -1 then .error "Error setting socket buffer size"
  else .ok ()

def setIoFlag (table : Table Address) (descriptor : Int) (outcomes : SetupOutcomes) : Int :=
  if table.option descriptor outcomes.getFlags = -1 then -1
  else if table.option descriptor outcomes.setFlags ≠ 0 then -1
  else 0

def setupSocket (table : Table Address) (descriptor : Int) (outcomes : SetupOutcomes) :
    Except String Unit :=
  match setSocketBufferSize table descriptor outcomes.sendBuffer with
  | .error message => .error message
  | .ok () =>
      match setSocketBufferSize table descriptor outcomes.receiveBuffer with
      | .error message => .error message
      | .ok () =>
          if setIoFlag table descriptor outcomes = -1 then
            .error "Error setting socket to non-blocking on client-side"
          else .ok ()

structure Outcomes (Address : Type) where
  serverInfo : Except String (List (AddressInfo Address))
  uninitialised : Int
  setup : SetupOutcomes

def createSocket (outcomes : Outcomes Address) (table : Table Address) :
    Except String (Int × Table Address) :=
  match getServerInformation outcomes.serverInfo with
  | .error message => .error message
  | .ok serverInfo =>
      let (descriptor, table) := getAddress table outcomes.uninitialised serverInfo
      if descriptor = 1 then .ok (-1, table)
      else
        match setupSocket table descriptor outcomes.setup with
        | .error message => .error message
        | .ok () => .ok (descriptor, table)

def AddressInfo.usable (info : AddressInfo Address) : Bool :=
  info.socket && info.connect

structure FallsBack (serverInfo : List (AddressInfo Address)) (uninitialised : Int)
    (setup : SetupOutcomes) (table : Table Address) : Prop where
  connected : ∀ info rest, serverInfo.dropWhile (fun info => !info.usable) = info :: rest →
    ∃ socket, (getAddress table uninitialised serverInfo).2.lookup
        (getAddress table uninitialised serverInfo).1 = some (.socket socket) ∧
      socket.connected = some info.address
  closed : ∀ other, other ≠ (getAddress table uninitialised serverInfo).1 →
    table.lookup other = none →
      (getAddress table uninitialised serverInfo).2.lookup other = none
  retries : (∀ info ∈ serverInfo, info.usable = false) →
    ∃ next, createSocket ⟨.ok serverInfo, uninitialised, setup⟩ table = .ok (-1, next) ∧
      ∀ later, awaitSocket createSocket (⟨.ok serverInfo, uninitialised, setup⟩ :: later) (-1)
        table = awaitSocket createSocket later (-1) next

def FirstConnects (serverInfo : List (AddressInfo Address)) : Prop :=
  ∃ info, serverInfo.find? (fun info => info.socket) = some info ∧ info.connect = true

variable {serverInfo : List (AddressInfo Address)} {uninitialised : Int} {setup : SetupOutcomes}
  {table : Table Address} {info : AddressInfo Address}

theorem getAddress_unopened (none : serverInfo.find? (fun info => info.socket) = none) :
    ∃ closed, getAddress table uninitialised serverInfo = (-1, table.close closed) := by
  induction serverInfo generalizing uninitialised with
  | nil => exact ⟨uninitialised, rfl⟩
  | cons first rest ih =>
      obtain ⟨failed, later⟩ := find_cons_none none
      obtain ⟨closed, found⟩ : ∃ closed, getAddress table (-1) rest =
          (-1, table.close closed) := ih later
      refine ⟨closed, ?_⟩
      simpa [getAddress, failed, Table.socket] using found

theorem getAddress_opened (opened : serverInfo.find? (fun info => info.socket) = some info) :
    ∃ rest descriptor new, serverInfo.dropWhile (fun info => !info.socket) = info :: rest ∧
      table.socket true = (descriptor, new) ∧
      getAddress table uninitialised serverInfo =
        if info.connect = true then (descriptor, (new.connect descriptor info.address true).2)
        else (-1, new.close descriptor) := by
  induction serverInfo generalizing uninitialised with
  | nil => cases opened
  | cons first rest ih =>
      by_cases succeeds : first.socket = true
      · rw [List.find?_cons_of_pos (by simpa using succeeds)] at opened
        cases opened
        cases call : table.socket true with
        | mk descriptor new =>
            obtain ⟨nonneg, _, fresh, _⟩ := Table.socket_true call
            refine ⟨rest, descriptor, new, by simp [succeeds], rfl, ?_⟩
            have valid : descriptor ≠ -1 := by omega
            cases connects : info.connect with
            | false =>
                simp [getAddress, succeeds, call, valid, connects, Table.connect,
                  Table.change_fails]
            | true =>
                obtain ⟨next, changed, _⟩ := Table.change_succeeds
                  (fun socket => { socket with connected := some info.address }) fresh
                simp [getAddress, succeeds, call, valid, connects, Table.connect, changed]
      · have fails : first.socket = false := by simpa using succeeds
        rw [List.find?_cons_of_neg (by simp [fails])] at opened
        obtain ⟨later, descriptor, new, drops, call, found⟩ := @ih (-1) opened
        refine ⟨later, descriptor, new, by simpa [fails] using drops, call, ?_⟩
        simpa [getAddress, fails, Table.socket] using found

/-- -1 is not the 1 that `create_socket` looks for, so that it is set up, which fails. -/
theorem createSocket_unconnected {next : Table Address}
    (search : getAddress table uninitialised serverInfo = (-1, next)) :
    createSocket ⟨.ok serverInfo, uninitialised, setup⟩ table =
      .error "Error setting socket buffer size" := by
  have closed : next.option (-1) setup.sendBuffer = -1 := Table.option_closed rfl
  simp [createSocket, getServerInformation, Except.mapError, search, setupSocket,
    setSocketBufferSize, closed]

theorem not_fallsBack {next : Table Address}
    (search : getAddress table uninitialised serverInfo = (-1, next)) :
    ¬FallsBack serverInfo uninitialised setup table := by
  intro promise
  cases found : serverInfo.dropWhile (fun info => !info.usable) with
  | nil =>
      have unusable := List.dropWhile_eq_nil_iff.mp found
      obtain ⟨_, returned, _⟩ := promise.retries fun info member => by
        simpa using unusable info member
      rw [createSocket_unconnected search] at returned
      cases returned
  | cons info rest =>
      obtain ⟨socket, known, _⟩ := promise.connected info rest found
      rw [search] at known
      cases known

theorem FallsBack.firstConnects (promise : FallsBack serverInfo uninitialised setup table) :
    FirstConnects serverInfo := by
  cases opened : serverInfo.find? (fun info => info.socket) with
  | none =>
      obtain ⟨closed, search⟩ := @getAddress_unopened _ serverInfo uninitialised table opened
      exact absurd promise (not_fallsBack search)
  | some info =>
      obtain ⟨_, _, _, _, _, search⟩ :=
        @getAddress_opened _ serverInfo uninitialised table info opened
      cases connects : info.connect with
      | true => exact ⟨info, opened, connects⟩
      | false =>
          rw [connects] at search
          exact absurd promise (not_fallsBack search)

/-- The client's search and its retry loop keep what they promise just when the first
address that gets a socket gets it connected. -/
theorem falls_back_iff (serverInfo : List (AddressInfo Address)) (uninitialised : Int)
    (setup : SetupOutcomes) (table : Table Address) :
    FallsBack serverInfo uninitialised setup table ↔ FirstConnects serverInfo := by
  constructor
  · intro promise
    exact promise.firstConnects
  · rintro ⟨info, opened, connects⟩
    obtain ⟨rest, descriptor, new, drops, call, search⟩ :=
      @getAddress_opened _ serverInfo uninitialised table info opened
    rw [if_pos connects] at search
    obtain ⟨_, free, fresh, others⟩ := Table.socket_true call
    obtain ⟨next, changed, found, kept⟩ := Table.change_succeeds
      (fun socket => { socket with connected := some info.address }) fresh
    rw [Table.connect, changed] at search
    have takes : info.socket = true := by simpa using List.find?_some opened
    have usable : info.usable = true := by simp [AddressInfo.usable, takes, connects]
    have drops : serverInfo.dropWhile (fun info => !info.usable) = info :: rest := by
      refine dropWhile_weaken drops ?_ (by simp [usable])
      intro other closed
      simp_all [AddressInfo.usable]
    constructor
    · intro info' rest' same
      rw [drops] at same
      cases same
      rw [search]
      exact ⟨_, found, rfl⟩
    · intro other different closed
      rw [search] at different ⊢
      rw [kept other different, others other different]
      exact closed
    · intro unusable
      have member := List.mem_of_find?_eq_some opened
      rw [unusable info member] at usable
      cases usable

/-- The first of two addresses refuses the connection, and the process ends. -/
theorem falls_back_refused :
    createSocket ⟨.ok [⟨1, true, false⟩, ⟨2, true, true⟩], 0, ⟨true, true, true, true⟩⟩ [] =
      .error "Error setting socket buffer size" ∧
    ¬FallsBack [⟨1, true, false⟩, ⟨2, true, true⟩] 0 ⟨true, true, true, true⟩
      ([] : Table Nat) := by
  refine ⟨rfl, ?_⟩
  intro promise
  obtain ⟨info, opened, connects⟩ := promise.firstConnects
  cases opened
  cases connects

end TcpClient

end IpcBench
