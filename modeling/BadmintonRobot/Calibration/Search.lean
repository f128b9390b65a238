import Mathlib
import BadmintonRobot.Calibration.Store

/-!
# Looking for a name

`located` goes through the buffer and reads a word behind each mark. It goes on as long as the words
are short and differ from the name. A word that is too long for `name_str` ends the search with
undefined behaviour.
-/

namespace BadmintonRobot.Calibration

variable {name prev word str buffer : List UInt8} {nameStr : Option (List UInt8)} {m p q : Nat}

section Words

/-- A word ends before the next colon or zero. -/
theorem sscanf_short {c : UInt8} (ends : str[m]? = some c) (stop : c = colon ∨ c = 0) :
    ∃ word, sscanf str = some word ∧ word.length ≤ m ∧
      ∀ k < word.length, str[k]? = word[k]? := by
  have begins := List.prefix_iff_getElem?.mp
    (List.takeWhile_prefix (fun c => decide (c ≠ colon ∧ c ≠ 0)) : _ <+: str)
  have short : (str.takeWhile fun c => c ≠ colon ∧ c ≠ 0).length ≤ m := by
    by_contra long
    have inside := Nat.lt_of_not_le long
    obtain rfl : c = _ := Option.some.inj (ends.symm.trans (begins m inside))
    have letter := List.mem_takeWhile_imp (List.getElem_mem inside)
    rw [decide_eq_true_iff] at letter
    rcases stop with same | same
    · exact letter.1 same
    · exact letter.2 same
  have bound : m < str.length := (List.getElem?_eq_some_iff.mp ends).1
  refine ⟨_, if_pos (by omega), short, fun k inside => ?_⟩
  rw [begins k inside, List.getElem?_eq_getElem inside]

/-- The word is a name that ends with a colon. -/
theorem sscanf_name (letters : ∀ c ∈ name, c ≠ colon ∧ c ≠ 0)
    (same : ∀ k < name.length, str[k]? = name[k]?) (ends : str[name.length]? = some colon) :
    sscanf str = some name := by
  have split : str = name ++ colon :: str.drop (name.length + 1) := by
    apply List.ext_getElem?
    intro k
    rcases Nat.lt_trichotomy k name.length with inside | rfl | behind
    · rw [List.getElem?_append_left inside, same k inside]
    · rw [List.getElem?_append_right le_rfl, Nat.sub_self, ends]
      rfl
    · obtain ⟨j, rfl⟩ := Nat.exists_eq_add_of_lt behind
      rw [List.getElem?_append_right (by omega), show name.length + j + 1 - name.length = j + 1 by
        omega, List.getElem?_cons_succ, List.getElem?_drop]
      congr 1
      omega
  have whole : (str.takeWhile fun c => c ≠ colon ∧ c ≠ 0) = name := by
    rw [split, List.takeWhile_append_of_pos fun c member => decide_eq_true (letters c member)]
    simp
  have bound : name.length < str.length := (List.getElem?_eq_some_iff.mp ends).1
  rw [sscanf, whole]
  exact if_pos bound

/-- The bytes of a word, and the byte that ends it. -/
theorem sscanf_spec (scanned : sscanf str = some word) :
    (∀ k < word.length, str[k]? = word[k]?) ∧
      ∃ c, str[word.length]? = some c ∧ (c = colon ∨ c = 0) := by
  simp only [sscanf, Option.ite_none_right_eq_some, Option.some.injEq] at scanned
  obtain ⟨short, rfl⟩ := scanned
  set letter : UInt8 → Bool := fun c => decide (c ≠ colon ∧ c ≠ 0)
  have whole := List.takeWhile_append_dropWhile (p := letter) (l := str)
  have left : 0 < (str.dropWhile letter).length := by
    have lengths := congrArg List.length whole
    rw [List.length_append] at lengths
    omega
  refine ⟨fun k inside => ?_, (str.dropWhile letter).get ⟨0, left⟩, ?_, ?_⟩
  · rw [List.prefix_iff_getElem?.mp (List.takeWhile_prefix letter) k inside,
      List.getElem?_eq_getElem inside]
  · nth_rewrite 1 [← whole]
    rw [List.getElem?_append_right le_rfl, Nat.sub_self]
    exact List.getElem?_eq_getElem left
  · have stop := List.dropWhile_get_zero_not letter str left
    by_contra neither
    exact stop (decide_eq_true (not_or.mp neither))

theorem takeWhile_agree {other : List UInt8} {letter : UInt8 → Bool} {c d : UInt8}
    (agree : ∀ k < m, str[k]? = other[k]?) (ends : str[m]? = some c) (stop : letter c = false)
    (ends' : other[m]? = some d) (stop' : letter d = false) :
    str.takeWhile letter = other.takeWhile letter := by
  induction m generalizing str other with
  | zero =>
    obtain ⟨rest, rfl⟩ : ∃ rest, str = c :: rest := by
      cases str <;> simp_all
    obtain ⟨rest', rfl⟩ : ∃ rest', other = d :: rest' := by
      cases other <;> simp_all
    simp [stop, stop']
  | succ m ih =>
    have first := agree 0 (by omega)
    cases str with
    | nil => simp at ends
    | cons head str =>
      cases other with
      | nil => simp at ends'
      | cons head' other =>
        obtain rfl : head = head' := by simpa using first
        have rest := ih (fun k inside => agree (k + 1) (by omega)) ends ends'
        simp [List.takeWhile_cons, rest]

/-- A word is determined by the bytes up to its end. -/
theorem sscanf_agree {other : List UInt8} {c d : UInt8} (agree : ∀ k < m, str[k]? = other[k]?)
    (ends : str[m]? = some c) (stop : c = colon ∨ c = 0)
    (ends' : other[m]? = some d) (stop' : d = colon ∨ d = 0) : sscanf str = sscanf other := by
  have nonletter : ∀ {c : UInt8}, c = colon ∨ c = 0 → decide (c ≠ colon ∧ c ≠ 0) = false := by
    rintro c (rfl | rfl) <;> decide
  have same : str.takeWhile (fun c => c ≠ colon ∧ c ≠ 0) =
      other.takeWhile fun c => c ≠ colon ∧ c ≠ 0 :=
    takeWhile_agree agree ends (nonletter stop) ends' (nonletter stop')
  obtain ⟨word, scanned, -⟩ := sscanf_short ends stop
  obtain ⟨word', scanned', -⟩ := sscanf_short ends' stop'
  rw [scanned, scanned', Option.some.injEq]
  simp only [sscanf, Option.ite_none_right_eq_some, Option.some.injEq] at scanned scanned'
  rw [← scanned.2, ← scanned'.2]
  exact same

end Words

section Located

/-- What a single position of the buffer does to the search. -/
theorem drop_eq_cons {c : UInt8} (here : buffer[q]? = some c) :
    buffer.drop q = c :: buffer.drop (q + 1) := by
  obtain ⟨inside, rfl⟩ := List.getElem?_eq_some_iff.mp here
  exact List.drop_eq_getElem_cons inside

/-- The word behind a mark does not end the search. -/
def Passes (name buffer : List UInt8) (q : Nat) : Prop :=
  ∃ word, sscanf (buffer.drop (q + 1)) = some word ∧ word.length < 20 ∧ word ≠ name

theorem located_step (inside : q < buffer.length)
    (passes : buffer[q]? = some mark → Passes name buffer q) (other : prev ≠ name) :
    ∃ later, later ≠ name ∧ located name (buffer.drop q) q (some prev) =
      located name (buffer.drop (q + 1)) (q + 1) (some later) := by
  have here := List.getElem?_eq_getElem inside
  rw [drop_eq_cons here, located]
  by_cases marked : buffer[q] = mark
  · obtain ⟨word, scanned, short, differs⟩ := passes (here.trans (congrArg some marked))
    rw [if_pos marked, scanned, Option.bind_some, if_pos short]
    by_cases empty : word = []
    · refine ⟨prev, other, ?_⟩
      rw [if_pos empty, Option.bind_some, if_neg other]
    · refine ⟨word, differs, ?_⟩
      rw [if_neg empty, Option.bind_some, if_neg differs]
  · exact ⟨prev, other, by rw [if_neg marked]⟩

/-- The search goes on over a part of the buffer in which no word ends it. -/
theorem located_pass (ordered : p ≤ q) (inside : q ≤ buffer.length)
    (passes : ∀ i, p ≤ i → i < q → buffer[i]? = some mark → Passes name buffer i)
    (other : prev ≠ name) :
    ∃ later, later ≠ name ∧ located name (buffer.drop p) p (some prev) =
      located name (buffer.drop q) q (some later) := by
  induction q, ordered using Nat.le_induction with
  | base => exact ⟨prev, other, rfl⟩
  | succ q ordered ih =>
    obtain ⟨middle, differs, reached⟩ :=
      ih (by omega) fun i low high => passes i low (by omega)
    obtain ⟨later, still, further⟩ :=
      located_step (by omega) (passes q ordered (by omega)) differs
    exact ⟨later, still, reached.trans further⟩

/-- The record of the name is found. -/
theorem located_here (here : buffer[q]? = some mark)
    (scanned : sscanf (buffer.drop (q + 1)) = some name) (short : name.length < 20)
    (nonempty : name ≠ []) : located name (buffer.drop q) q nameStr = some (some q) := by
  rw [drop_eq_cons here, located, if_pos rfl, scanned, Option.bind_some, if_pos short,
    if_neg nonempty, Option.bind_some, if_pos rfl]

/-- A word that does not fit into `name_str`. -/
theorem located_overrun (here : buffer[q]? = some mark)
    (scanned : sscanf (buffer.drop (q + 1)) = some word) (long : 20 ≤ word.length) :
    located name (buffer.drop q) q nameStr = none := by
  rw [drop_eq_cons here, located, if_pos rfl, scanned, Option.bind_some, if_neg (by omega)]

/-- The search ends at the record of the name at the latest, if all words before are short. -/
theorem located_by (ordered : p ≤ q) (here : buffer[q]? = some mark)
    (scanned : sscanf (buffer.drop (q + 1)) = some name) (short : name.length < 20)
    (nonempty : name ≠ [])
    (words : ∀ i, p ≤ i → i < q → buffer[i]? = some mark →
      ∃ word, sscanf (buffer.drop (i + 1)) = some word ∧ word.length < 20)
    (prev : List UInt8) :
    ∃ r ≤ q, located name (buffer.drop p) p (some prev) = some (some r) := by
  obtain ⟨n, rfl⟩ := Nat.exists_eq_add_of_le ordered
  induction n generalizing p prev with
  | zero => exact ⟨p, le_rfl, located_here here scanned short nonempty⟩
  | succ n ih =>
    have inside : p < buffer.length := by
      have bound := (List.getElem?_eq_some_iff.mp here).1
      omega
    have current := List.getElem?_eq_getElem inside
    have place : p + (n + 1) = p + 1 + n := by omega
    rw [place] at here scanned words ⊢
    have goesOn : ∀ prev, ∃ r ≤ p + 1 + n,
        located name (buffer.drop (p + 1)) (p + 1) (some prev) = some (some r) :=
      fun prev => ih prev (by omega) here scanned fun i low high => words i (by omega) high
    rw [drop_eq_cons current, located]
    by_cases marked : buffer[p] = mark
    · obtain ⟨word, read, fits⟩ := words p le_rfl (by omega) (current.trans (congrArg some marked))
      rw [if_pos marked, read, Option.bind_some, if_pos fits]
      have known : ∃ nameStr, (if word = [] then some prev else some word) = some nameStr := by
        split_ifs
        · exact ⟨prev, rfl⟩
        · exact ⟨word, rfl⟩
      obtain ⟨nameStr, same⟩ := known
      rw [same, Option.bind_some]
      split_ifs
      · exact ⟨p, by omega, rfl⟩
      · exact goesOn nameStr
    · rw [if_neg marked]
      exact goesOn prev

/-- The first mark with the name behind it, where nothing before ends the search. -/
structure FirstAt (name buffer : List UInt8) (q : Nat) : Prop where
  here : buffer[q]? = some mark
  word : sscanf (buffer.drop (q + 1)) = some name
  passes : ∀ p < q, buffer[p]? = some mark → Passes name buffer p

theorem FirstAt.unique (one : FirstAt name buffer p) (two : FirstAt name buffer q) : p = q := by
  have absent : ∀ {p q}, FirstAt name buffer p → FirstAt name buffer q → ¬p < q := by
    intro p q one two before
    obtain ⟨word, scanned, -, differs⟩ := two.passes p before one.here
    exact differs (Option.some.inj (scanned.symm.trans one.word))
  exact Nat.le_antisymm (Nat.le_of_not_lt (absent two one)) (Nat.le_of_not_lt (absent one two))

/-- What a search has passed before it finds the name. -/
theorem located_found (nonempty : name ≠ []) (other : prev ≠ name)
    (found : located name (buffer.drop p) p (some prev) = some (some q)) :
    p ≤ q ∧ buffer[q]? = some mark ∧ sscanf (buffer.drop (q + 1)) = some name ∧
      ∀ i, p ≤ i → i < q → buffer[i]? = some mark → Passes name buffer i := by
  obtain ⟨left, long⟩ : ∃ left, buffer.length - p = left := ⟨_, rfl⟩
  induction left generalizing p prev with
  | zero =>
    rw [List.drop_eq_nil_of_le (by omega), located] at found
    exact nomatch found
  | succ left ih =>
    have here := List.getElem?_eq_getElem (show p < buffer.length by omega)
    rw [drop_eq_cons here, located] at found
    -- the search goes on behind a position that does not end it
    have goesOn : ∀ {prev}, prev ≠ name →
        (buffer[p]? = some mark → Passes name buffer p) →
        located name (buffer.drop (p + 1)) (p + 1) (some prev) = some (some q) →
        p ≤ q ∧ buffer[q]? = some mark ∧ sscanf (buffer.drop (q + 1)) = some name ∧
          ∀ i, p ≤ i → i < q → buffer[i]? = some mark → Passes name buffer i := by
      intro prev other passed found
      obtain ⟨behind, marked, word, passes⟩ := ih other found (by omega)
      refine ⟨by omega, marked, word, fun i low high => ?_⟩
      rcases Nat.eq_or_lt_of_le low with rfl | low
      · exact passed
      · exact passes i low high
    split_ifs at found with marked
    · obtain ⟨word, scanned, found⟩ := Option.bind_eq_some_iff.mp found
      split_ifs at found with short empty
      · -- an empty word leaves the one before, which was not the name
        rw [Option.bind_some, if_neg other] at found
        exact goesOn other (fun _ => ⟨word, scanned, short, empty ▸ nonempty.symm⟩) found
      · rw [Option.bind_some] at found
        split_ifs at found with same
        · obtain rfl : p = q := by simpa using found
          exact ⟨Nat.le_refl p, here.trans (congrArg some marked), same ▸ scanned,
            fun i low high => absurd high (by omega)⟩
        · exact goesOn same (fun _ => ⟨word, scanned, short, same⟩) found
    · exact goesOn other (fun here' => absurd (by simpa [here] using here') marked) found

/-- A search that begins with a record finds exactly the first one. -/
theorem located_iff (nonempty : name ≠ []) (short : name.length < 20)
    (begins : buffer[0]? = some mark) (scanned : sscanf (buffer.drop 1) = some word)
    (known : word ≠ []) (fits : word.length < 20) :
    located name buffer 0 none = some (some q) ↔ FirstAt name buffer q := by
  have split := drop_eq_cons begins
  rw [List.drop_zero] at split
  have start : located name buffer 0 none =
      if word = name then some (some 0) else located name (buffer.drop 1) 1 (some word) := by
    conv_lhs => rw [split, located, if_pos rfl, scanned, Option.bind_some, if_pos fits,
      if_neg known, Option.bind_some]
  rw [start]
  split_ifs with same
  · subst same
    have first : FirstAt word buffer 0 := ⟨begins, scanned, nofun⟩
    constructor
    · intro found
      obtain rfl : 0 = q := by simpa using found
      exact first
    · intro found
      rw [first.unique found]
  · constructor
    · intro found
      obtain ⟨behind, marked, read, passes⟩ := located_found nonempty same found
      refine ⟨marked, read, fun p before here => ?_⟩
      rcases Nat.eq_zero_or_pos p with rfl | later
      · exact ⟨word, scanned, fits, same⟩
      · exact passes p later before here
    · intro found
      have bound := (List.getElem?_eq_some_iff.mp found.here).1
      have behind : 1 ≤ q := by
        rcases Nat.eq_zero_or_pos q with rfl | later
        · exact absurd (Option.some.inj (scanned.symm.trans found.word)) same
        · exact later
      obtain ⟨later, -, reached⟩ := located_pass behind (by omega)
        (fun i _ before => found.passes i before) same
      rw [reached]
      exact located_here found.here found.word short nonempty

end Located

end BadmintonRobot.Calibration
