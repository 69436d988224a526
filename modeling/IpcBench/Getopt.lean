import Mathlib.Algebra.GroupWithZero.Nat

/-!
The documented behaviour of `getopt_long` for an option string with a leading plus: the words
are read in their order, up to the first that is no option.
-/

namespace Getopt

structure LongOption where
  name : List Char
  takesArgument : Bool
  value : Char
deriving DecidableEq, Repr

/-- The option string after its plus, and the long options. -/
structure Table where
  shorts : List Char
  longs : List LongOption
deriving DecidableEq, Repr

structure Result where
  value : Char
  argument : Option (List Char)
deriving DecidableEq, Repr

def unknown : Result := ⟨'?', none⟩

def missing (table : Table) : Result :=
  ⟨if table.shorts.head? = some ':' then ':' else '?', none⟩

/-- The options that are left of the word being read, and the words that follow it. -/
structure Scanner where
  cluster : List Char
  words : List (List Char)
deriving DecidableEq, Repr

def shortOption (shorts : List Char) (letter : Char) : Option Bool :=
  if letter = ':' ∨ letter = ';' then none
  else
    match shorts.dropWhile fun other => other ≠ letter with
    | [] => none
    | [_] => some false
    | _ :: next :: _ => some (next = ':')

/-- A long option goes by its name or by a beginning that no other name has. -/
def longOption (longs : List LongOption) (text : List Char) : Option LongOption :=
  match longs.find? fun option => option.name = text with
  | some option => some option
  | none =>
      match longs.filter fun option => text.isPrefixOf option.name with
      | [option] => some option
      | _ => none

def withArgument (table : Table) (value : Char) : List (List Char) → Result × Scanner
  | [] => (missing table, ⟨[], []⟩)
  | argument :: rest => (⟨value, some argument⟩, ⟨[], rest⟩)

def readShort (table : Table) (letter : Char) (more : List Char) (rest : List (List Char)) :
    Result × Scanner :=
  match shortOption table.shorts letter with
  | none => (unknown, ⟨more, rest⟩)
  | some false => (⟨letter, none⟩, ⟨more, rest⟩)
  | some true =>
      if more = [] then withArgument table letter rest
      else (⟨letter, some more⟩, ⟨[], rest⟩)

def readLong (table : Table) (text : List Char) (rest : List (List Char)) : Result × Scanner :=
  match longOption table.longs (text.takeWhile fun char => char ≠ '=') with
  | none => (unknown, ⟨[], rest⟩)
  | some option =>
      match text.dropWhile fun char => char ≠ '=' with
      | [] =>
          if option.takesArgument then withArgument table option.value rest
          else (⟨option.value, none⟩, ⟨[], rest⟩)
      | _ :: attached =>
          if option.takesArgument then (⟨option.value, some attached⟩, ⟨[], rest⟩)
          else (unknown, ⟨[], rest⟩)

/-- One call of `getopt_long`; no result stands for -1. -/
def next (table : Table) (scanner : Scanner) : Option (Result × Scanner) :=
  match scanner.cluster, scanner.words with
  | letter :: more, rest => some (readShort table letter more rest)
  | [], ['-', '-'] :: _ => none
  | [], ('-' :: '-' :: text) :: rest => some (readLong table text rest)
  | [], ('-' :: letter :: more) :: rest => some (readShort table letter more rest)
  | [], _ => none

def Scanner.size (scanner : Scanner) : Nat :=
  scanner.cluster.length + (scanner.words.map fun word => word.length + 1).sum

def resultsFrom (table : Table) : Nat → Scanner → List Result
  | 0, _ => []
  | fuel + 1, scanner =>
      match next table scanner with
      | none => []
      | some (result, after) => result :: resultsFrom table fuel after

def results (table : Table) (scanner : Scanner) : List Result :=
  resultsFrom table scanner.size scanner

section Scan

variable {table : Table} {scanner after : Scanner} {result : Result}

theorem withArgument_size (value : Char) (rest : List (List Char)) :
    (withArgument table value rest).2.size ≤ (Scanner.mk [] rest).size := by
  cases rest with
  | nil => simp [withArgument]
  | cons argument rest =>
      simp only [withArgument, Scanner.size, List.map_cons, List.sum_cons]
      omega

theorem readShort_size (letter : Char) (more : List Char) (rest : List (List Char)) :
    (readShort table letter more rest).2.size ≤ (Scanner.mk more rest).size := by
  unfold readShort
  split
  · exact Nat.le_refl _
  · exact Nat.le_refl _
  · split
    · rename_i empty
      rw [empty]
      exact withArgument_size letter rest
    · simp [Scanner.size]

theorem readLong_size (text : List Char) (rest : List (List Char)) :
    (readLong table text rest).2.size ≤ (Scanner.mk [] rest).size := by
  unfold readLong
  split
  · exact Nat.le_refl _
  · split
    · split
      · exact withArgument_size _ rest
      · exact Nat.le_refl _
    · split
      · exact Nat.le_refl _
      · exact Nat.le_refl _

theorem next_size (called : next table scanner = some (result, after)) :
    after.size < scanner.size := by
  obtain ⟨cluster, words⟩ := scanner
  simp only [next] at called
  split at called
  · rename_i letter more
    have bound := @readShort_size table letter more words
    simp only [Option.some.injEq] at called
    rw [called] at bound
    simp only [Scanner.size, List.length_cons] at bound ⊢
    omega
  · cases called
  · rename_i text rest _
    have bound := @readLong_size table text rest
    simp only [Option.some.injEq] at called
    rw [called] at bound
    simp only [Scanner.size, List.length_cons, List.map_cons, List.sum_cons] at bound ⊢
    omega
  · rename_i letter more rest _ _
    have bound := @readShort_size table letter more rest
    simp only [Option.some.injEq] at called
    rw [called] at bound
    simp only [Scanner.size, List.length_cons, List.map_cons, List.sum_cons] at bound ⊢
    omega
  · cases called

theorem next_of_size (empty : scanner.size = 0) : next table scanner = none := by
  cases called : next table scanner with
  | none => rfl
  | some pair =>
      have smaller := next_size called
      omega

theorem resultsFrom_congr {fuel fuel' : Nat} (enough : scanner.size ≤ fuel)
    (enough' : scanner.size ≤ fuel') :
    resultsFrom table fuel scanner = resultsFrom table fuel' scanner := by
  induction fuel generalizing scanner fuel' with
  | zero =>
      cases fuel' with
      | zero => rfl
      | succ fuel' => simp [resultsFrom, next_of_size (Nat.le_zero.mp enough)]
  | succ fuel ih =>
      cases fuel' with
      | zero => simp [resultsFrom, next_of_size (Nat.le_zero.mp enough')]
      | succ fuel' =>
          simp only [resultsFrom]
          cases called : next table scanner with
          | none => rfl
          | some pair =>
              have smaller := next_size called
              simp only [List.cons.injEq, true_and]
              apply ih <;> omega

theorem results_next (called : next table scanner = some (result, after)) :
    results table scanner = result :: results table after := by
  have smaller := next_size called
  obtain ⟨fuel, size⟩ := Nat.exists_eq_add_one_of_ne_zero (Nat.ne_zero_of_lt smaller)
  simp only [results, size, resultsFrom, called, List.cons.injEq, true_and]
  exact resultsFrom_congr (by omega) (Nat.le_refl _)

theorem results_end (called : next table scanner = none) : results table scanner = [] := by
  unfold results
  cases scanner.size with
  | zero => rfl
  | succ fuel => simp [resultsFrom, called]

end Scan

/-! The words that an argument vector can have. -/

section Words

variable {table : Table} {rest : List (List Char)}

@[simp] theorem results_nil : results table ⟨[], []⟩ = [] := rfl

theorem results_operand {word : List Char} (operand : word.head? ≠ some '-') :
    results table ⟨[], word :: rest⟩ = [] := by
  apply results_end
  cases word with
  | nil => rfl
  | cons first more =>
      have other : first ≠ '-' := fun same => operand (by simp [same])
      unfold next
      split <;> simp_all

theorem results_unknown {cluster : List Char}
    (foreign : ∀ letter ∈ cluster, shortOption table.shorts letter = none) :
    results table ⟨cluster, rest⟩ =
      cluster.map (fun _ => unknown) ++ results table ⟨[], rest⟩ := by
  induction cluster with
  | nil => rfl
  | cons letter more ih =>
      have called : next table ⟨letter :: more, rest⟩ = some (unknown, ⟨more, rest⟩) := by
        simp [next, readShort, foreign letter List.mem_cons_self]
      rw [results_next called, ih fun other member => foreign other (List.mem_cons_of_mem _ member)]
      rfl

theorem results_cluster {letter : Char} {more : List Char} (other : letter ≠ '-') :
    results table ⟨[], ('-' :: letter :: more) :: rest⟩ =
      (readShort table letter more rest).1 :: results table (readShort table letter more rest).2 := by
  apply results_next
  unfold next
  split <;> simp_all

theorem results_undeclared {letter : Char} {more : List Char} (other : letter ≠ '-')
    (foreign : ∀ char ∈ letter :: more, shortOption table.shorts char = none) :
    results table ⟨[], ('-' :: letter :: more) :: rest⟩ =
      (letter :: more).map (fun _ => unknown) ++ results table ⟨[], rest⟩ := by
  rw [results_cluster other, readShort, foreign letter List.mem_cons_self]
  simp only [List.map_cons, List.cons_append, List.cons.injEq, true_and]
  exact results_unknown fun char member => foreign char (List.mem_cons_of_mem _ member)

theorem results_long {text : List Char} (some : text ≠ []) :
    results table ⟨[], ('-' :: '-' :: text) :: rest⟩ =
      (readLong table text rest).1 :: results table (readLong table text rest).2 := by
  apply results_next
  obtain ⟨first, more, rfl⟩ := List.exists_cons_of_ne_nil some
  rfl

end Words

end Getopt
