import IpcBench.CString

/-!
How the parent finds the binaries that it launches: `find_build_path` cuts the path of its
own source file behind the last `ipc-bench` and `start_children` appends the names.
-/

namespace IpcBench

open CString

def projectName : List Char :=
  ['i', 'p', 'c', '-', 'b', 'e', 'n', 'c', 'h']

def buildPath : List Char :=
  ['/', 'b', 'u', 'i', 'l', 'd', '/', 's', 'o', 'u', 'r', 'c', 'e']

def processPath : List Char :=
  ['/', 's', 'o', 'u', 'r', 'c', 'e', '/', 'c', 'o', 'm', 'm', 'o', 'n', '/', 'p', 'r', 'o',
   'c', 'e', 's', 's', '.', 'c']

/-- The loop with `left` and `right`, where the first argument is one more than `left`. Where
it stops, `right` is on the last letter of the name. -/
def scanBack (path : List Char) : Nat → Nat → Nat
  | 0, right => right
  | left + 1, right =>
      if path[left]? = some 'i' ∧ path[right]? = some 'h' then
        if (path.drop left).take 9 = projectName then right
        else scanBack path left (right - 1)
      else scanBack path left (right - 1)

def serverRole : List Char :=
  ['s', 'e', 'r', 'v', 'e', 'r']

def clientRole : List Char :=
  ['c', 'l', 'i', 'e', 'n', 't']

/-- `find_build_path`, for `__FILE__` and for what the memory from `malloc` contains. No
result means that a string is written beyond its buffer. -/
def findBuildPath (file memory : List Char) : Option (List Char) :=
  match strcpy memory 0 file with
  | none => none
  | some path => strcpy path (scanBack path (file.length - 8) (file.length - 1) + 1) buildPath

def Allocated (file memory : List Char) : Prop :=
  memory.length = file.length + buildPath.length

structure NameBuffers where
  server : List Char
  client : List Char
  server_length : server.length = 100
  client_length : client.length = 100

structure ChildNames where
  server : List Char
  client : List Char
deriving DecidableEq, Repr

def childName (path transport role : List Char) : List (List Char) :=
  [path, ['/'], transport, ['/'], transport, ['-'], role]

def startChildren (file memory : List Char) (buffers : NameBuffers) (transport : List Char) :
    Option ChildNames :=
  match findBuildPath file memory with
  | none => none
  | some path =>
      match sprintf buffers.server (childName (cstring path) transport serverRole),
        sprintf buffers.client (childName (cstring path) transport clientRole) with
      | some server, some client => some ⟨cstring server, cstring client⟩
      | _, _ => none

/-- What the parent promises for a checkout with this root: no string is written beyond its
buffer, and the names are those of the binaries of this checkout. -/
def LaunchesOwn (root transport : Text) (memory : List Char) (buffers : NameBuffers) : Prop :=
  startChildren (root.chars ++ processPath) memory buffers transport.chars = some {
    server := (childName (root.chars ++ buildPath) transport.chars serverRole).flatten
    client := (childName (root.chars ++ buildPath) transport.chars clientRole).flatten }

theorem scanBack_eq (path : List Char) (bound : Nat) :
    scanBack path bound (bound + 7) =
      match rfind projectName path bound with
      | some position => position + 8
      | none => 7 := by
  induction bound with
  | zero => rfl
  | succ bound ih =>
      have previous : bound + 1 + 7 - 1 = bound + 7 := by omega
      have named : (path.drop bound).take 9 = projectName ↔ MatchesAt projectName path bound :=
        Iff.rfl
      simp only [scanBack, rfind, previous, ih, named]
      by_cases here : MatchesAt projectName path bound
      · have first : path[bound]? = some 'i' := here.getElem? 0 (by decide)
        have last : path[bound + 8]? = some 'h' := here.getElem? 8 (by decide)
        simp [first, last, here]
      · simp only [here, if_false, ite_self]

section Search

variable {root transport : Text} {rest : List Char}

theorem inside_root {position : Nat}
    (here : MatchesAt projectName (root.chars ++ (processPath ++ rest)) position)
    (below : position < root.chars.length + processPath.length - 8) :
    position + 9 ≤ root.chars.length := by
  apply Nat.le_of_not_lt
  intro beyond
  have length : processPath.length = 24 := rfl
  by_cases before : position ≤ root.chars.length
  · have slash := here.getElem? (root.chars.length - position) (by
      have nine : projectName.length = 9 := rfl
      omega)
    rw [Nat.add_sub_cancel' before, List.getElem?_append_right (Nat.le_refl _), Nat.sub_self]
      at slash
    have member : '/' ∈ projectName := List.mem_of_getElem? slash.symm
    exact absurd member (by decide)
  · have first := here.getElem? 0 (by decide)
    rw [Nat.add_zero, List.getElem?_append_right (by omega),
      List.getElem?_append_left (by omega)] at first
    have member : 'i' ∈ processPath := List.mem_of_getElem? first
    exact absurd member (by decide)

theorem last_occurrence (contains : projectName <:+: root.chars) : ∃ position,
    rfind projectName (root.chars ++ (processPath ++ rest))
      (root.chars.length + processPath.length - 8) = some position ∧
    position + 9 ≤ root.chars.length ∧
    (position + 9 = root.chars.length ↔ projectName <:+ root.chars) := by
  have length : processPath.length = 24 := rfl
  have found (before after : List Char) (split : before ++ projectName ++ after = root.chars) :
      ∃ last, rfind projectName (root.chars ++ (processPath ++ rest))
        (root.chars.length + processPath.length - 8) = some last ∧ before.length ≤ last := by
    apply rfind_of_matches
    · rw [← split, List.append_assoc]
      exact matchesAt_append before _
    · rw [← split]
      simp only [List.length_append]
      omega
  obtain ⟨before, after, split⟩ := contains
  obtain ⟨position, search, _⟩ := found before after split
  obtain ⟨here, below⟩ := rfind_some search
  have inside := inside_root here below
  refine ⟨position, search, inside, ?_, ?_⟩
  · intro ends
    refine ⟨root.chars.take position, ?_⟩
    have cut := here.take
    have nine : projectName.length = 9 := rfl
    rw [nine, ends, List.take_left, List.take_append_of_le_length (by omega)] at cut
    exact cut.symm
  · rintro ⟨start, ends⟩
    obtain ⟨last, same, above⟩ := found start [] (by simpa using ends)
    rw [search] at same
    cases same
    have whole := congrArg List.length ends
    have nine : projectName.length = 9 := rfl
    rw [List.length_append] at whole
    omega

theorem findBuildPath_eq (contains : projectName <:+: root.chars) {memory : List Char}
    (allocated : Allocated (root.chars ++ processPath) memory) : ∃ path position,
    findBuildPath (root.chars ++ processPath) memory = some path ∧
    cstring path = root.chars.take (position + 9) ++ buildPath ∧
    position + 9 ≤ root.chars.length ∧
    (position + 9 = root.chars.length ↔ projectName <:+ root.chars) := by
  have sizes : processPath.length = 24 ∧ buildPath.length = 13 := ⟨rfl, rfl⟩
  unfold Allocated at allocated
  obtain ⟨path, copy⟩ := @strcpy_fits memory (root.chars ++ processPath) 0 (by omega)
  have content := (strcpy_eq copy).2
  simp only [List.take_zero, List.nil_append, List.append_assoc] at content
  obtain ⟨position, search, inside, ends⟩ := last_occurrence contains
  rw [← content] at search
  have last : scanBack path ((root.chars ++ processPath).length - 8)
      ((root.chars ++ processPath).length - 1) = position + 8 := by
    have right : (root.chars ++ processPath).length - 1 =
        (root.chars ++ processPath).length - 8 + 7 := by
      rw [List.length_append]
      omega
    rw [right, scanBack_eq, List.length_append, search]
  have kept : path.take (position + 8 + 1) = root.chars.take (position + 9) := by
    rw [content, List.take_append_of_le_length inside]
  have length := strcpy_length copy
  obtain ⟨cut, written⟩ := @strcpy_fits path buildPath (position + 8 + 1) (by
    rw [List.length_append] at allocated
    omega)
  refine ⟨cut, position, ?_, ?_, inside, ends⟩
  · rw [findBuildPath, copy]
    simp only [last]
    exact written
  · rw [cstring_strcpy written ?_ (by decide), kept]
    rw [kept]
    intro member
    exact root.proper (List.mem_of_mem_take member)

theorem childName_length (path transport role : List Char) :
    (childName path transport role).flatten.length =
      path.length + 2 * transport.length + role.length + 3 := by
  simp only [childName, List.flatten_cons, List.flatten_nil, List.length_append, List.length_cons,
    List.length_nil]
  omega

theorem childName_injective {path other transport role : List Char}
    (same : (childName path transport role).flatten = (childName other transport role).flatten) :
    path = other := by
  simp only [childName, List.flatten_cons] at same
  exact List.append_cancel_right same

theorem childName_proper {path role : List Char} (pathProper : nul ∉ path) (roleProper : nul ∉ role) :
    nul ∉ (childName path transport.chars role).flatten := by
  intro member
  obtain ⟨part, inside, here⟩ := List.mem_flatten.mp member
  simp only [childName, List.mem_cons, List.not_mem_nil, or_false] at inside
  rcases inside with rfl | rfl | rfl | rfl | rfl | rfl | rfl
  · exact pathProper here
  · exact absurd here (by decide)
  · exact transport.proper here
  · exact absurd here (by decide)
  · exact transport.proper here
  · exact absurd here (by decide)
  · exact roleProper here

theorem sprintf_eq {buffer path role : List Char} (buffer_length : buffer.length = 100)
    (pathProper : nul ∉ path) (role_length : role.length = 6) (roleProper : nul ∉ role) :
    (path.length + 2 * transport.chars.length + 10 ≤ 100 →
      ∃ written, sprintf buffer (childName path transport.chars role) = some written ∧
        cstring written = (childName path transport.chars role).flatten) ∧
    (100 < path.length + 2 * transport.chars.length + 10 →
      sprintf buffer (childName path transport.chars role) = none) := by
  have length := childName_length path transport.chars role
  constructor
  · intro fits
    obtain ⟨written, copy⟩ := @strcpy_fits buffer (childName path transport.chars role).flatten 0
      (by omega)
    refine ⟨written, copy, ?_⟩
    simpa using cstring_strcpy copy (by simp) (childName_proper pathProper roleProper)
  · intro overrun
    apply strcpy_overruns
    omega

end Search

/-- For a root whose path contains the name: the parent launches the binaries of its own
checkout just when the path ends with the name and the longest string, with its zero byte,
has room in 100 bytes. -/
theorem launches_own_iff (root transport : Text) (contains : projectName <:+: root.chars)
    {memory : List Char} (allocated : Allocated (root.chars ++ processPath) memory)
    (buffers : NameBuffers) :
    LaunchesOwn root transport memory buffers ↔
      projectName <:+ root.chars ∧ root.chars.length + 2 * transport.chars.length + 23 ≤ 100 := by
  obtain ⟨path, position, search, text, inside, ends⟩ := findBuildPath_eq contains allocated
  have proper : nul ∉ cstring path := by
    rw [text, List.mem_append]
    rintro (member | member)
    · exact root.proper (List.mem_of_mem_take member)
    · exact absurd member (by decide)
  have length : (cstring path).length = position + 22 := by
    have thirteen : buildPath.length = 13 := rfl
    rw [text, List.length_append, List.length_take]
    omega
  obtain ⟨serverFits, overrun⟩ := @sprintf_eq transport buffers.server (cstring path)
    serverRole buffers.server_length proper rfl (by decide)
  obtain ⟨clientFits, _⟩ := @sprintf_eq transport buffers.client (cstring path)
    clientRole buffers.client_length proper rfl (by decide)
  by_cases fits : (cstring path).length + 2 * transport.chars.length + 10 ≤ 100
  · obtain ⟨server, serverWritten, serverText⟩ := serverFits fits
    obtain ⟨client, clientWritten, clientText⟩ := clientFits fits
    have names : startChildren (root.chars ++ processPath) memory buffers transport.chars =
        some ⟨(childName (cstring path) transport.chars serverRole).flatten,
          (childName (cstring path) transport.chars clientRole).flatten⟩ := by
      simp only [startChildren, search, serverWritten, clientWritten, serverText, clientText]
    rw [LaunchesOwn, names, ← ends]
    constructor
    · intro same
      simp only [Option.some.injEq, ChildNames.mk.injEq] at same
      have root_eq := childName_injective same.1
      rw [text] at root_eq
      have whole := congrArg List.length (List.append_cancel_right root_eq)
      rw [List.length_take] at whole
      omega
    · rintro ⟨whole, _⟩
      rw [text, whole, List.take_length]
  · have none : startChildren (root.chars ++ processPath) memory buffers transport.chars = none := by
      simp only [startChildren, search, overrun (by omega)]
    rw [LaunchesOwn, none, ← ends]
    constructor
    · intro same
      cases same
    · rintro ⟨whole, room⟩
      omega

def filled (size : Nat) : List Char :=
  List.replicate size 'x'

def NameBuffers.filled : NameBuffers where
  server := IpcBench.filled 100
  client := IpcBench.filled 100
  server_length := by decide
  client_length := by decide

def homeRoot : Text where
  chars := '/' :: projectName
  proper := by decide

def secondRoot : Text where
  chars := '/' :: projectName ++ ['-', '2']
  proper := by decide

def tcpTransport : Text where
  chars := ['t', 'c', 'p']
  proper := by decide

theorem launches_own_iff_home : LaunchesOwn homeRoot tcpTransport (filled 47) .filled := by
  have allocated : Allocated (homeRoot.chars ++ processPath) (filled 47) := rfl
  exact (launches_own_iff homeRoot tcpTransport (by decide) allocated .filled).mpr (by decide)

theorem launches_other :
    startChildren (secondRoot.chars ++ processPath) (filled 49) .filled tcpTransport.chars =
      some ⟨(childName (homeRoot.chars ++ buildPath) tcpTransport.chars serverRole).flatten,
        (childName (homeRoot.chars ++ buildPath) tcpTransport.chars clientRole).flatten⟩ ∧
    ¬LaunchesOwn secondRoot tcpTransport (filled 49) .filled := by
  have names : startChildren (secondRoot.chars ++ processPath) (filled 49) .filled
      tcpTransport.chars =
      some ⟨(childName (homeRoot.chars ++ buildPath) tcpTransport.chars serverRole).flatten,
        (childName (homeRoot.chars ++ buildPath) tcpTransport.chars clientRole).flatten⟩ := by
    decide
  refine ⟨names, ?_⟩
  intro own
  rw [LaunchesOwn, names] at own
  exact absurd own (by decide)

end IpcBench
