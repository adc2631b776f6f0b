import EmvaultCore.Library.Text

/-!
# Words of a shell command

How a POSIX shell splits a command into words: single quotes, double quotes,
backslashes, comments, and the characters that end a word. Expansions are left
out.
-/

namespace EmvaultCore.Library.Shell

open Library (Text)

inductive Mode where
  | plain
  | escaped
  | single
  | double
  | doubleEscaped
  | comment
deriving DecidableEq, Repr

/-- The words finished so far, and the one being read. -/
structure State where
  mode : Mode
  word : Option Text
  words : List Text
deriving DecidableEq, Repr

namespace State

def initial : State := ⟨.plain, none, []⟩

def enter (state : State) (mode : Mode) : State := { state with mode := mode }

def push (state : State) (mode : Mode) (text : Text) : State :=
  { state with mode := mode, word := some (state.word.getD [] ++ text) }

def finish (state : State) : State :=
  { state with word := none, words := state.words ++ state.word.toList }

end State

/-- Blanks, line breaks and operators end a word. -/
def delimiters : Text := [' ', '\t', '\n', '|', '&', ';', '<', '>', '(', ')']

/-- The characters that a backslash escapes inside double quotes. -/
def doubleEscapes : Text := ['$', Char.ofNat 96, '"', '\\']

def stepPlain (state : State) (char : Char) : State :=
  if char = '\'' then state.push .single []
  else if char = '"' then state.push .double []
  else if char = '\\' then state.enter .escaped
  else if char ∈ delimiters then state.finish
  else if char = '#' ∧ state.word = none then state.enter .comment
  else state.push .plain [char]

def step (state : State) (char : Char) : State :=
  match state.mode with
  | .plain => stepPlain state char
  | .escaped => if char = '\n' then state.enter .plain else state.push .plain [char]
  | .single => if char = '\'' then state.enter .plain else state.push .single [char]
  | .double =>
      if char = '"' then state.enter .plain
      else if char = '\\' then state.enter .doubleEscaped
      else state.push .double [char]
  | .doubleEscaped =>
      if char = '\n' then state.enter .double
      else if char ∈ doubleEscapes then state.push .double [char]
      else state.push .double ['\\', char]
  | .comment => if char = '\n' then state.enter .plain else state

def run (state : State) (text : Text) : State := text.foldl step state

/-- The words of a complete command; an open quotation waits for more input. -/
def words (text : Text) : Option (List Text) :=
  let state := run .initial text
  match state.mode with
  | .plain | .comment => some (state.words ++ state.word.toList)
  | _ => none

section Runs

variable {state : State} {text : Text}

theorem run_append (state : State) (text rest : Text) :
    run state (text ++ rest) = run (run state text) rest := by
  rw [run, List.foldl_append, run, run]

theorem run_cons (state : State) (char : Char) (rest : Text) :
    run state (char :: rest) = run (step state char) rest := rfl

theorem run_single {word : Text} {words : List Text} (absent : '\'' ∉ text) :
    run ⟨.single, some word, words⟩ text = ⟨.single, some (word ++ text), words⟩ := by
  induction text generalizing word with
  | nil => simp [run]
  | cons char text ih =>
      rw [List.mem_cons, not_or] at absent
      have copied : step ⟨.single, some word, words⟩ char =
          ⟨.single, some (word ++ [char]), words⟩ := if_neg (Ne.symm absent.1)
      rw [run_cons, copied, ih absent.2, List.append_assoc, List.singleton_append]

theorem run_quoted {before : List Text} (absent : '\'' ∉ text) :
    run ⟨.plain, none, before⟩ ('\'' :: text ++ ['\'']) = ⟨.plain, some text, before⟩ := by
  have opened : step ⟨.plain, none, before⟩ '\'' = ⟨.single, some [], before⟩ := rfl
  rw [List.cons_append, run_cons, opened, run_append, run_single absent]
  rfl

/-! ### What a word can consist of -/

/-- The backslash that is read but not yet decided on. -/
def pending : Mode → Text
  | .doubleEscaped => ['\\']
  | _ => []

/-- The words other than the given ones keep the order of the source text. -/
structure Within (before : List Text) (source : Text) (state : State) : Prop where
  words : ∀ word ∈ state.words, word ∈ before ∨ word.Sublist source
  word : (state.word.getD [] ++ pending state.mode).Sublist source

variable {before : List Text} {source : Text} {char : Char}

theorem Within.earlier (within : Within before source state) {word : Text}
    (member : word ∈ state.words) : word ∈ before ∨ word.Sublist (source ++ [char]) :=
  (within.words word member).imp_right fun kept => kept.trans (List.sublist_append_left _ _)

theorem Within.current (within : Within before source state) :
    (state.word.getD []).Sublist source :=
  (List.sublist_append_left _ _).trans within.word

theorem Within.enter {mode : Mode} (within : Within before source state)
    (nothing : pending mode = []) : Within before (source ++ [char]) (state.enter mode) where
  words := fun _ member => within.earlier member
  word := by
    have same : pending (state.enter mode).mode = [] := nothing
    rw [same, List.append_nil]
    exact within.current.trans (List.sublist_append_left _ _)

theorem Within.push {mode : Mode} (within : Within before source state)
    (nothing : pending mode = [])
    (kept : (state.word.getD [] ++ text).Sublist (source ++ [char])) :
    Within before (source ++ [char]) (state.push mode text) where
  words := fun _ member => within.earlier member
  word := by
    have same : pending (state.push mode text).mode = [] := nothing
    rw [same, List.append_nil]
    exact kept

theorem Within.copy {mode : Mode} (within : Within before source state)
    (nothing : pending mode = []) :
    Within before (source ++ [char]) (state.push mode [char]) :=
  within.push nothing (within.current.append (List.Sublist.refl [char]))

theorem Within.finish (within : Within before source state) (settled : pending state.mode = []) :
    Within before (source ++ [char]) state.finish where
  words := by
    intro word member
    rcases List.mem_append.mp member with earlier | last
    · exact within.earlier earlier
    · right
      have current : state.word.getD [] = word := by
        rw [Option.mem_toList.mp last, Option.getD_some]
      exact (current ▸ within.current).trans (List.sublist_append_left _ _)
  word := by
    have same : pending state.finish.mode = [] := settled
    rw [same]
    exact List.nil_sublist _

theorem within_step_plain (within : Within before source state) (plain : state.mode = .plain) :
    Within before (source ++ [char]) (stepPlain state char) := by
  have begun : (state.word.getD [] ++ []).Sublist (source ++ [char]) := by
    rw [List.append_nil]
    exact within.current.trans (List.sublist_append_left _ _)
  unfold stepPlain
  split
  · exact within.push rfl begun
  split
  · exact within.push rfl begun
  split
  · exact within.enter rfl
  split
  · exact within.finish (by rw [plain]; rfl)
  split
  · exact within.enter rfl
  · exact within.copy rfl

theorem within_step (within : Within before source state) :
    Within before (source ++ [char]) (step state char) := by
  unfold step
  cases mode : state.mode with
  | plain => exact within_step_plain within mode
  | escaped =>
      dsimp only
      split
      · exact within.enter rfl
      · exact within.copy rfl
  | single =>
      dsimp only
      split
      · exact within.enter rfl
      · exact within.copy rfl
  | double =>
      dsimp only
      split
      · exact within.enter rfl
      split
      · rename_i slash
        constructor
        · exact fun _ member => within.earlier member
        · rw [slash]
          exact within.current.append (List.Sublist.refl ['\\'])
      · exact within.copy rfl
  | doubleEscaped =>
      dsimp only
      split
      · exact within.enter rfl
      split
      · exact within.copy rfl
      · apply within.push rfl
        have read := within.word
        rw [mode] at read
        have both := read.append (List.Sublist.refl [char])
        rwa [List.append_assoc] at both
  | comment =>
      dsimp only
      split
      · exact within.enter rfl
      · constructor
        · exact fun _ member => within.earlier member
        · exact within.word.trans (List.sublist_append_left _ _)

theorem within_run (within : Within before source state) (text : Text) :
    Within before (source ++ text) (run state text) := by
  induction text generalizing state source with
  | nil =>
      rw [List.append_nil]
      exact within
  | cons char text ih =>
      have later := ih (@within_step _ _ _ char within)
      rwa [List.append_assoc, List.singleton_append] at later

theorem words_within (within : Within before source (run .initial text)) {found : List Text}
    (split : words text = some found) {word : Text} (member : word ∈ found) :
    word ∈ before ∨ word.Sublist source := by
  have listed : word ∈ (run .initial text).words ++ (run .initial text).word.toList := by
    unfold words at split
    cases mode : (run .initial text).mode <;> simp only [mode] at split
    case plain =>
      rw [Option.some.inj split]
      exact member
    case comment =>
      rw [Option.some.inj split]
      exact member
    all_goals cases split
  rcases List.mem_append.mp listed with earlier | last
  · exact within.words word earlier
  · have current : (run .initial text).word.getD [] = word := by
      rw [Option.mem_toList.mp last, Option.getD_some]
    exact Or.inr (current ▸ within.current)

end Runs

/-- A text put between single quotes at the end of a line is its last word
exactly when it has no single quote itself. -/
theorem last_word_quoted_iff {line text : Text} {before : List Text}
    (start : run .initial line = ⟨.plain, none, before⟩)
    (unquoted : ∀ word ∈ before, '\'' ∉ word) (ending : text.getLast? ≠ some '\'') :
    (∃ found, words (line ++ ('\'' :: text ++ ['\''])) = some found ∧
        found.getLast? = some text) ↔ '\'' ∉ text := by
  constructor
  · intro last quoted
    obtain ⟨found, split, isLast⟩ := last
    obtain ⟨front, back, whole, absent⟩ := List.eq_append_cons_of_mem quoted
    -- The quotation ends in front of the first quote of the text.
    have closed : line ++ ('\'' :: text ++ ['\'']) =
        line ++ ('\'' :: front ++ ['\'']) ++ (back ++ ['\'']) := by simp [whole]
    have begun : Within before front ⟨.plain, some front, before⟩ := by
      constructor
      · exact fun word member => Or.inl member
      · simp [pending]
    have middle : run .initial (line ++ ('\'' :: front ++ ['\''])) =
        ⟨.plain, some front, before⟩ := by
      rw [run_append, start, run_quoted absent]
    have reached : Within before (front ++ (back ++ ['\'']))
        (run .initial (line ++ ('\'' :: text ++ ['\'']))) := by
      rw [closed, run_append, middle]
      exact within_run begun _
    rcases words_within reached split (List.mem_of_getLast? isLast) with earlier | kept
    · exact unquoted text earlier quoted
    · have size : text.length = (front ++ (back ++ ['\''])).length := by
        rw [whole]
        simp
      rw [kept.eq_of_length size, ← List.append_assoc, List.getLast?_concat] at ending
      exact ending rfl
  · intro absent
    refine ⟨before ++ [text], ?_, List.getLast?_concat⟩
    rw [words, run_append, start, run_quoted absent]
    rfl

end EmvaultCore.Library.Shell
