/-
BenchSettings.Assignments — variables out of lines `KEY=value`.

A file `.env` in the current directory holds assignments, one after the other.
An assignment stands at the start of a line, after any blanks and perhaps the
word `export`. Its value goes to the end of the line or to a comment, or is
quoted, and then holds whatever the quotes enclose, line ends included. A line
that is no assignment means nothing, so every text means something, and there
is nothing that could be reported. Another file or other rules, which a process
can ask for, are not considered.

The scanners work on lists of characters and give back what they leave.
`entries` ends because a key is not empty and no value gives characters back
(`assigned?_length`, `value_length`).
-/
import BenchSettings.Directory
import BenchSettings.Environment
import BenchSettings.Text.Blank

namespace BenchSettings.Assignments

open Text (isBlank trimBoth)

/-! ## 1. Characters -/

def isLineEnd (c : Char) : Bool := c == '\n' || c == '\u2028' || c == '\u2029'

def isKeyPart (c : Char) : Bool := c.isAlphanum || c == '_' || c == '.' || c == '-'

/-- A quote: single, double or a grave accent. -/
def isQuote (c : Char) : Bool := c == '\x27' || c == '\x22' || c == '\x60'

/-- A character that a value without quotes can hold. -/
def isPlain (c : Char) : Bool := c != '#' && c != '\n'

/-- A line feed for each carriage return, which takes a line feed after it along. -/
def lineFeeds : List Char → List Char
  | '\r' :: '\n' :: rest => '\n' :: lineFeeds rest
  | '\r' :: rest => '\n' :: lineFeeds rest
  | c :: rest => c :: lineFeeds rest
  | [] => []

/-! ## 2. Keys -/

/-- What follows the sign between a key and its value: an equals sign, which may have blanks before
it, or a colon and a blank. -/
def signed? : List Char → Option (List Char)
  | ':' :: c :: text => if isBlank c then some text else none
  | cs =>
    match cs.dropWhile isBlank with
    | '=' :: text => some text
    | _ => none

/-- A key, and what follows the sign after it. -/
def keyed? (cs : List Char) : Option (List Char × List Char) :=
  if cs.takeWhile isKeyPart = [] then none
  else (signed? (cs.dropWhile isKeyPart)).map (cs.takeWhile isKeyPart, ·)

/-- What follows the word `export` and the blanks after it. -/
def exported? (cs : List Char) : Option (List Char) :=
  if "export".toList.isPrefixOf cs ∧ (cs.drop 6).takeWhile isBlank ≠ [] then
    some ((cs.drop 6).dropWhile isBlank)
  else none

/-- The key of an assignment and the text its value stands at the start of. The word `export` is
itself a key if no other key follows. -/
def assigned? (cs : List Char) : Option (List Char × List Char) :=
  ((exported? cs).bind keyed?).or (keyed? cs)

/-! ## 3. Values -/

/-- The places where a text in quotes can end, each as what comes before and what comes after the
quote. The first quote without a backslash before it is the first choice; the quotes with a
backslash on the way there are choices too, the last of them first. -/
def closings (quote : Char) : List Char → List (List Char × List Char)
  | [] => []
  | '\\' :: c :: rest =>
    if c = quote then
      (closings quote rest).map (fun (inside, after) => ('\\' :: c :: inside, after)) ++
        [(['\\'], rest)]
    else (closings quote (c :: rest)).map fun (inside, after) => ('\\' :: inside, after)
  | c :: rest =>
    if c = quote then [([], rest)]
    else (closings quote rest).map fun (inside, after) => (c :: inside, after)

/-- Whether nothing but blanks and a comment stand before the end of the line. -/
def endsLine (cs : List Char) : Bool :=
  match cs.dropWhile isBlank with
  | [] => true
  | c :: _ => c == '#' || (cs.takeWhile isBlank).any isLineEnd

/-- A value in quotes, with them, and what follows it. Nothing else can stand in its last line. -/
def quoted? (cs : List Char) : Option (List Char × List Char) :=
  match cs.dropWhile isBlank with
  | [] => none
  | quote :: body =>
    if isQuote quote then
      ((closings quote body).find? fun (_, after) => endsLine after).map
        fun (inside, after) => (quote :: inside ++ [quote], after)
    else none

/-- The value a text starts with, as it is written, and what follows it. -/
def value (cs : List Char) : List Char × List Char :=
  (quoted? cs).getD (cs.takeWhile isPlain, cs.dropWhile isPlain)

/-- Splits a text at the last quote that ends a line. -/
def splitClosing? (quote : Char) : List Char → Option (List Char × List Char)
  | [] => none
  | c :: rest =>
    match splitClosing? quote rest with
    | some (inside, after) => some (c :: inside, after)
    | none => if c = quote ∧ rest.head?.all isLineEnd then some ([], rest) else none

theorem splitClosing?_length {quote : Char} {cs inside after : List Char}
    (h : splitClosing? quote cs = some (inside, after)) : after.length < cs.length := by
  induction cs generalizing inside with
  | nil => simp [splitClosing?] at h
  | cons c rest ih =>
    unfold splitClosing? at h
    split at h
    · rename_i found
      obtain ⟨-, rfl⟩ := Prod.mk.inj (Option.some.inj h)
      have := ih found
      simp only [List.length_cons]
      omega
    · split at h
      · obtain ⟨-, rfl⟩ := Prod.mk.inj (Option.some.inj h)
        simp
      · contradiction

/-- A text without the quotes around its lines: a quote that starts a line is dropped together with
the last one like it that ends a line. -/
def unquoted (startsLine : Bool) (cs : List Char) : List Char :=
  match cs with
  | [] => []
  | c :: rest =>
    match _closing : if startsLine && isQuote c then splitClosing? c rest else none with
    | some (inside, after) => inside ++ unquoted false after
    | none => c :: unquoted (isLineEnd c) rest
termination_by cs.length
decreasing_by
  · split at _closing
    · have := splitClosing?_length _closing
      simp only [List.length_cons]
      omega
    · contradiction
  · simp

/-- The text with line ends for the escapes that stand for them. -/
def expanded : List Char → List Char
  | '\\' :: 'n' :: rest => '\n' :: expanded rest
  | '\\' :: 'r' :: rest => '\r' :: expanded rest
  | c :: rest => c :: expanded rest
  | [] => []

/-- What a written value means: its text without the blanks around it and without its quotes. Only
double quotes leave escapes their meaning. -/
def meaning (written : List Char) : List Char :=
  let text := trimBoth isBlank written
  if text.head? = some '\x22' then expanded (unquoted true text) else unquoted true text

/-! ## 4. What is left gets shorter -/

theorem length_dropWhile_le (p : Char → Bool) (cs : List Char) :
    (cs.dropWhile p).length ≤ cs.length := (List.dropWhile_sublist p).length_le

theorem signed?_length {cs text : List Char} (h : signed? cs = some text) :
    text.length < cs.length := by
  unfold signed? at h
  split at h
  · split at h
    · obtain rfl := Option.some.inj h
      simp only [List.length_cons]
      omega
    · contradiction
  · have blanks := length_dropWhile_le isBlank cs
    split at h
    · rename_i start
      obtain rfl := Option.some.inj h
      rw [start, List.length_cons] at blanks
      omega
    · contradiction

theorem keyed?_length {cs key text : List Char} (h : keyed? cs = some (key, text)) :
    text.length < cs.length := by
  unfold keyed? at h
  split at h
  · contradiction
  · obtain ⟨text', signed, e⟩ := Option.map_eq_some_iff.1 h
    obtain ⟨-, rfl⟩ := Prod.mk.inj e
    exact Nat.lt_of_lt_of_le (signed?_length signed) (length_dropWhile_le isKeyPart cs)

theorem exported?_length {cs rest : List Char} (h : exported? cs = some rest) :
    rest.length ≤ cs.length := by
  unfold exported? at h
  have blanks := length_dropWhile_le isBlank (cs.drop 6)
  simp only [List.length_drop] at blanks
  split at h
  · obtain rfl := Option.some.inj h
    omega
  · contradiction

theorem assigned?_length {cs key text : List Char} (h : assigned? cs = some (key, text)) :
    text.length < cs.length := by
  unfold assigned? at h
  rcases Option.or_eq_some_iff.1 h with h | ⟨-, h⟩
  · obtain ⟨rest, below, h⟩ := Option.bind_eq_some_iff.1 h
    exact Nat.lt_of_lt_of_le (keyed?_length h) (exported?_length below)
  · exact keyed?_length h

theorem closings_length {quote : Char} {cs : List Char} :
    ∀ e ∈ closings quote cs, e.2.length ≤ cs.length := by
  fun_induction closings quote cs with
  | case1 => simp
  | case2 rest ih =>
    intro e he
    rcases List.mem_append.1 he with he | he
    · obtain ⟨e', he', rfl⟩ := List.mem_map.1 he
      have := ih e' he'
      simp; omega
    · simp_all
      omega
  | case3 c rest h ih =>
    intro e he
    obtain ⟨e', he', rfl⟩ := List.mem_map.1 he
    have := ih e' he'
    simp_all; omega
  | case4 rest => simp
  | case5 c rest h₁ h₂ ih =>
    intro e he
    obtain ⟨e', he', rfl⟩ := List.mem_map.1 he
    have := ih e' he'
    simp; omega

theorem value_length (cs : List Char) : (value cs).2.length ≤ cs.length := by
  unfold value quoted?
  have blanks := length_dropWhile_le isBlank cs
  split
  · exact length_dropWhile_le isPlain cs
  · rename_i quote body h
    split
    · cases found : (closings quote body).find? fun (_, after) => endsLine after with
      | none => exact length_dropWhile_le isPlain cs
      | some e =>
        have := closings_length e (List.mem_of_find?_eq_some found)
        simp_all; omega
    · exact length_dropWhile_le isPlain cs

/-! ## 5. Texts and files -/

/-- The assignments of a text that starts a line, in their order. -/
def entries (cs : List Char) : List (String × String) :=
  match _start : cs.dropWhile isBlank with
  | [] => []
  | c :: rest =>
    match _key : assigned? (c :: rest) with
    | some (key, text) =>
      (String.ofList key, String.ofList (meaning (value text).1)) :: entries (value text).2
    | none => entries (rest.dropWhile fun c => !isLineEnd c)
termination_by cs.length
decreasing_by
  all_goals
    have blanks := length_dropWhile_le isBlank cs
    rw [_start, List.length_cons] at blanks
  · have := value_length text
    have := assigned?_length _key
    simp only [List.length_cons] at this
    omega
  · have := length_dropWhile_le (fun c => !isLineEnd c) rest
    omega

/-- What a variable keeps of a text, which is all before the first NUL. -/
def kept (text : String) : String := String.ofList (text.toList.takeWhile (· != '\x00'))

/-- The environment that a text sets. Of two assignments to one key the later counts. -/
def environmentOf (text : List Char) : Environment :=
  .ofList ((entries (lineFeeds text)).map fun (name, text) => (name, some (kept text)))

def fileName : String := ".env"

/-- The environment that the file of assignments sets, which is empty if it cannot be read. The file
is always `.env`, whatever the process names. -/
def environment (files : Files) : Environment :=
  match files.text fileName with
  | .ok text => environmentOf text
  | .error _ => .empty

end BenchSettings.Assignments
