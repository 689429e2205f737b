import Mathlib.Algebra.Order.Ring.Int
import Mathlib.Data.List.Infix
import Mathlib.Order.Nat
import Mathlib.Tactic.Common

/-!
# No proper prefix of a JSON object is JSON

The grammar of JSON texts (`IsJson`), and the one fact about it that torn writes call for: a text
that starts as an object does is a JSON text only if it is complete (`not_isJson_of_prefix`).

The proof does not parse. It scans a text character by character, keeping the depth of open
brackets and whether the scan is inside a string (`Scan`). Every JSON text leaves the scan where
it was and never goes below it on the way (`Balanced`, `IsJson.balanced`); an object holds the
scan above its start until its last character.

`IsNested` is the grammar once more, with a bound on how deep arrays are nested; the length of a JSON text
is one (`IsJson.isNested_length`).
-/

namespace MeetilyLocal

namespace Json

/-! ## The grammar -/

/-- Insignificant whitespace. -/
def isWhitespace (c : Char) : Bool := c == ' ' || c == '\n' || c == '\t' || c == '\r'

/-- A non-empty sequence of digits. -/
def IsDigits (cs : List Char) : Prop := cs ≠ [] ∧ ∀ c ∈ cs, c.isDigit = true

/-- The integer part of a number: no leading zero. -/
def IsInt (cs : List Char) : Prop := IsDigits cs ∧ (cs.head? = some '0' → cs = ['0'])

/-- The fraction of a number, if any. -/
inductive IsFraction : List Char → Prop where
  /-- no fraction -/
  | none : IsFraction []
  /-- a dot and digits -/
  | some {cs : List Char} : IsDigits cs → IsFraction ('.' :: cs)

/-- The exponent of a number, if any. -/
inductive IsExponent : List Char → Prop where
  /-- no exponent -/
  | none : IsExponent []
  /-- a letter and digits -/
  | unsigned {e : Char} {cs : List Char} : e ∈ ['e', 'E'] → IsDigits cs → IsExponent (e :: cs)
  /-- a letter, a sign and digits -/
  | signed {e s : Char} {cs : List Char} :
      e ∈ ['e', 'E'] → s ∈ ['+', '-'] → IsDigits cs → IsExponent (e :: s :: cs)

/-- A number without its sign. -/
inductive IsUnsigned : List Char → Prop where
  /-- its three parts -/
  | parts {int frac exp : List Char} :
      IsInt int → IsFraction frac → IsExponent exp → IsUnsigned (int ++ frac ++ exp)

/-- A number. -/
inductive IsNumber : List Char → Prop where
  /-- without a sign -/
  | plain {cs : List Char} : IsUnsigned cs → IsNumber cs
  /-- with a minus sign -/
  | minus {cs : List Char} : IsUnsigned cs → IsNumber ('-' :: cs)

/-- A hexadecimal digit. -/
def isHexDigit (c : Char) : Bool :=
  c.isDigit || ('a' ≤ c && c ≤ 'f') || ('A' ≤ c && c ≤ 'F')

/-- What stands between the quotes of a string. -/
inductive IsStringBody : List Char → Prop where
  /-- nothing -/
  | nil : IsStringBody []
  /-- a character that stands for itself -/
  | char {c : Char} {cs : List Char} :
      ' ' ≤ c → c ≠ '"' → c ≠ '\\' → IsStringBody cs → IsStringBody (c :: cs)
  /-- an escaped character -/
  | escape {c : Char} {cs : List Char} :
      c ∈ ['"', '\\', '/', 'b', 'f', 'n', 'r', 't'] → IsStringBody cs →
      IsStringBody ('\\' :: c :: cs)
  /-- a code unit in hexadecimal -/
  | unicode {a b c d : Char} {cs : List Char} :
      isHexDigit a = true → isHexDigit b = true → isHexDigit c = true → isHexDigit d = true →
      IsStringBody cs → IsStringBody ('\\' :: 'u' :: a :: b :: c :: d :: cs)

/-- A string. -/
inductive IsString : List Char → Prop where
  /-- a body in quotes -/
  | quoted {body : List Char} : IsStringBody body → IsString ('"' :: (body ++ ['"']))

/-- A text with whitespace around it. -/
def padded (pre cs post : List Char) : List Char := pre ++ cs ++ post

/-- The pieces with commas between them. -/
def commaSeparated : List (List Char) → List Char
  | [] => []
  | [piece] => piece
  | piece :: pieces => piece ++ ',' :: commaSeparated pieces

/-- A member of an object: its name, whitespace around it, and its value. -/
structure Member : Type where
  /-- whitespace before the name -/
  pre : List Char
  /-- the name, a string -/
  name : List Char
  /-- whitespace after the name -/
  post : List Char
  /-- the value, with whitespace around it -/
  value : List Char

/-- A member as text. -/
def Member.text (m : Member) : List Char := padded m.pre m.name m.post ++ ':' :: m.value

/-- An object as text; `ws` is the whitespace an empty one may have. -/
def objectText (ws : List Char) (members : List Member) : List Char :=
  '{' :: (ws ++ commaSeparated (members.map Member.text) ++ ['}'])

/-- A JSON text: a value with whitespace around it. -/
inductive IsJson : List Char → Prop where
  /-- `null`, `true` or `false` -/
  | literal {cs : List Char} :
      cs ∈ [['n', 'u', 'l', 'l'], ['t', 'r', 'u', 'e'], ['f', 'a', 'l', 's', 'e']] → IsJson cs
  /-- a number -/
  | number {cs : List Char} : IsNumber cs → IsJson cs
  /-- a string -/
  | string {cs : List Char} : IsString cs → IsJson cs
  /-- an array -/
  | array {ws : List Char} {elements : List (List Char)} :
      (∀ c ∈ ws, isWhitespace c = true) → (∀ e ∈ elements, IsJson e) →
      IsJson ('[' :: (ws ++ commaSeparated elements ++ [']']))
  /-- an object -/
  | object {ws : List Char} {members : List Member} :
      (∀ c ∈ ws, isWhitespace c = true) →
      (∀ m ∈ members, ∀ c ∈ m.pre ++ m.post, isWhitespace c = true) →
      (∀ m ∈ members, IsString m.name) → (∀ m ∈ members, IsJson m.value) →
      IsJson (objectText ws members)
  /-- whitespace around a value -/
  | pad {pre cs post : List Char} :
      (∀ c ∈ pre, isWhitespace c = true) → (∀ c ∈ post, isWhitespace c = true) → IsJson cs →
      IsJson (padded pre cs post)

/-- A JSON object without whitespace around it. -/
inductive IsObject : List Char → Prop where
  /-- the object of the grammar -/
  | intro {ws : List Char} {members : List Member} :
      (∀ c ∈ ws, isWhitespace c = true) →
      (∀ m ∈ members, ∀ c ∈ m.pre ++ m.post, isWhitespace c = true) →
      (∀ m ∈ members, IsString m.name) → (∀ m ∈ members, IsJson m.value) →
      IsObject (objectText ws members)

/-- A character that stands for itself in a string. -/
def isUnescaped (c : Char) : Bool := ' ' ≤ c && c != '"' && c != '\\'

/-- Characters that need no escape make up a string. -/
theorem isString_of_all (body : List Char) (h : body.all isUnescaped = true) :
    IsString ('"' :: (body ++ ['"'])) := by
  refine .quoted ?_
  induction body with
  | nil => exact .nil
  | cons c cs ih =>
    obtain ⟨hc, hcs⟩ := by simpa only [List.all_cons, Bool.and_eq_true] using h
    obtain ⟨⟨hprint, hquote⟩, hescape⟩ := by
      simpa only [isUnescaped, Bool.and_eq_true, decide_eq_true_eq, bne_iff_ne] using hc
    exact .char hprint hquote hescape (ih hcs)

/-! ## Scanning -/

/-- Where a scan stands with respect to strings. -/
inductive Mode : Type where
  /-- outside of strings -/
  | plain : Mode
  /-- inside a string -/
  | quoted : Mode
  /-- inside a string, after a backslash -/
  | escaped : Mode
  deriving DecidableEq

/-- The state of a scan. -/
structure Scan : Type where
  /-- the number of open brackets -/
  depth : ℤ
  /-- whether a string is open -/
  mode : Mode

/-- Scan one character. -/
def Scan.step (s : Scan) (c : Char) : Scan :=
  match s.mode with
  | .plain =>
    if c = '"' then ⟨s.depth, .quoted⟩
    else if c = '{' ∨ c = '[' then ⟨s.depth + 1, .plain⟩
    else if c = '}' ∨ c = ']' then ⟨s.depth - 1, .plain⟩
    else s
  | .quoted => if c = '"' then ⟨s.depth, .plain⟩ else if c = '\\' then ⟨s.depth, .escaped⟩ else s
  | .escaped => ⟨s.depth, .quoted⟩

/-- Scan a text. -/
def Scan.run (s : Scan) (cs : List Char) : Scan := cs.foldl Scan.step s

theorem Scan.run_append (s : Scan) (cs ds : List Char) : s.run (cs ++ ds) = (s.run cs).run ds :=
  List.foldl_append

theorem Scan.run_cons (s : Scan) (c : Char) (cs : List Char) : s.run (c :: cs) = (s.step c).run cs :=
  rfl

/-- Scanning the text comes back to where it was, and never goes below it. -/
structure Balanced (cs : List Char) : Prop where
  /-- back to the start -/
  run_eq : ∀ d, (Scan.mk d .plain).run cs = ⟨d, .plain⟩
  /-- never below it -/
  le_depth : ∀ d p, p <+: cs → d ≤ ((Scan.mk d .plain).run p).depth

theorem balanced_nil : Balanced [] := by
  refine ⟨fun _ => rfl, fun d p hp => ?_⟩
  rw [List.prefix_nil.mp hp]
  exact le_refl d

theorem Balanced.append {cs ds : List Char} (hc : Balanced cs) (hd : Balanced ds) :
    Balanced (cs ++ ds) := by
  refine ⟨fun d => by rw [Scan.run_append, hc.run_eq, hd.run_eq], fun d p hp => ?_⟩
  rcases List.prefix_or_prefix_of_prefix hp (List.prefix_append cs ds) with hp | ⟨q, rfl⟩
  · exact hc.le_depth d p hp
  · rw [Scan.run_append, hc.run_eq]
    exact hd.le_depth d q ((List.prefix_append_right_inj cs).mp hp)

/-- A character that is neither a bracket nor a quote. -/
def isInert (c : Char) : Bool :=
  c != '"' && c != '{' && c != '[' && c != '}' && c != ']'

theorem Scan.step_inert {c : Char} (h : isInert c = true) (d : ℤ) :
    (Scan.mk d .plain).step c = ⟨d, .plain⟩ := by
  simp only [isInert, Bool.and_eq_true, bne_iff_ne] at h
  obtain ⟨⟨⟨⟨hq, ho⟩, hb⟩, hc⟩, hd⟩ := h
  simp only [Scan.step, if_neg hq]
  rw [if_neg (by simp [ho, hb]), if_neg (by simp [hc, hd])]

theorem balanced_inert {c : Char} (h : isInert c = true) : Balanced [c] := by
  refine ⟨fun d => Scan.step_inert h d, fun d p hp => ?_⟩
  rcases List.prefix_cons_iff.mp hp with rfl | ⟨q, rfl, hq⟩
  · exact le_refl d
  · rw [List.prefix_nil.mp hq, Scan.run_cons, Scan.step_inert h]
    exact le_refl d

/-- A text without brackets and quotes is balanced. -/
theorem balanced_of_inert {cs : List Char} (h : ∀ c ∈ cs, isInert c = true) : Balanced cs := by
  induction cs with
  | nil => exact balanced_nil
  | cons c cs ih =>
    rw [← List.singleton_append]
    exact (balanced_inert (h c List.mem_cons_self)).append
      (ih fun c' hc' => h c' (List.mem_cons_of_mem c hc'))

/-- Opening and closing brackets. -/
def isBracketPair (o c : Char) : Prop := (o = '{' ∧ c = '}') ∨ (o = '[' ∧ c = ']')

theorem Scan.step_open {o c : Char} (h : isBracketPair o c) (d : ℤ) :
    (Scan.mk d .plain).step o = ⟨d + 1, .plain⟩ := by
  rcases h with ⟨rfl, -⟩ | ⟨rfl, -⟩ <;> rfl

theorem Scan.step_close {o c : Char} (h : isBracketPair o c) (d : ℤ) :
    (Scan.mk d .plain).step c = ⟨d - 1, .plain⟩ := by
  rcases h with ⟨-, rfl⟩ | ⟨-, rfl⟩ <;> rfl

/-- Between brackets, a balanced text keeps the scan above its start. -/
theorem Balanced.above {o c : Char} {cs : List Char} (hb : isBracketPair o c) (h : Balanced cs)
    {d : ℤ} {p : List Char} (hp : p <+: o :: (cs ++ [c])) (hne : p ≠ [])
    (hproper : p ≠ o :: (cs ++ [c])) : d < ((Scan.mk d .plain).run p).depth := by
  rcases List.prefix_cons_iff.mp hp with rfl | ⟨q, rfl, hq⟩
  · exact absurd rfl hne
  · have hinner : q <+: cs := by
      rcases List.prefix_concat_iff.mp hq with rfl | hq
      · exact absurd rfl hproper
      · exact hq
    rw [Scan.run_cons, Scan.step_open hb]
    exact lt_of_lt_of_le (lt_add_one d) (h.le_depth (d + 1) q hinner)

/-- Brackets around a balanced text are balanced. -/
theorem Balanced.bracket {o c : Char} {cs : List Char} (hb : isBracketPair o c)
    (h : Balanced cs) : Balanced (o :: (cs ++ [c])) := by
  have hrun : ∀ d, (Scan.mk d .plain).run (o :: (cs ++ [c])) = ⟨d, .plain⟩ := by
    intro d
    rw [Scan.run_cons, Scan.step_open hb, Scan.run_append, h.run_eq, Scan.run_cons,
      Scan.step_close hb, add_sub_cancel_right]
    rfl
  refine ⟨hrun, fun d p hp => ?_⟩
  by_cases hne : p = []
  · rw [hne]
    exact le_refl d
  · by_cases hproper : p = o :: (cs ++ [c])
    · rw [hproper, hrun]
    · exact (h.above hb hp hne hproper).le

/-! ## Every JSON text is balanced -/

/-- What a string body looks like to a scan: a backslash takes the next character along. -/
inductive IsQuoted : List Char → Prop where
  /-- nothing -/
  | nil : IsQuoted []
  /-- a character that neither closes the string nor escapes -/
  | char {c : Char} {cs : List Char} : c ≠ '"' → c ≠ '\\' → IsQuoted cs → IsQuoted (c :: cs)
  /-- an escaped character -/
  | escape {c : Char} {cs : List Char} : IsQuoted cs → IsQuoted ('\\' :: c :: cs)

theorem ne_of_isHexDigit {c : Char} (h : isHexDigit c = true) : c ≠ '"' ∧ c ≠ '\\' := by
  refine ⟨?_, ?_⟩
  · rintro rfl
    exact absurd h (by decide)
  · rintro rfl
    exact absurd h (by decide)

theorem IsStringBody.isQuoted {body : List Char} (h : IsStringBody body) : IsQuoted body := by
  induction h with
  | nil => exact .nil
  | char _ hq hb _ ih => exact .char hq hb ih
  | escape _ _ ih => exact .escape ih
  | unicode ha hb hc hd _ ih =>
    obtain ⟨ha₁, ha₂⟩ := ne_of_isHexDigit ha
    obtain ⟨hb₁, hb₂⟩ := ne_of_isHexDigit hb
    obtain ⟨hc₁, hc₂⟩ := ne_of_isHexDigit hc
    obtain ⟨hd₁, hd₂⟩ := ne_of_isHexDigit hd
    exact .escape (.char ha₁ ha₂ (.char hb₁ hb₂ (.char hc₁ hc₂ (.char hd₁ hd₂ ih))))

theorem Scan.step_char {c : Char} (hq : c ≠ '"') (hb : c ≠ '\\') (d : ℤ) :
    (Scan.mk d .quoted).step c = ⟨d, .quoted⟩ := by
  simp only [Scan.step, if_neg hq, if_neg hb]

/-- A string body keeps the scan inside the string. -/
theorem IsQuoted.run_eq {body : List Char} (h : IsQuoted body) (d : ℤ) :
    (Scan.mk d .quoted).run body = ⟨d, .quoted⟩ := by
  induction h with
  | nil => rfl
  | char hq hb _ ih => rw [Scan.run_cons, Scan.step_char hq hb, ih]
  | escape _ ih => exact ih

/-- Inside a string the depth does not change. -/
theorem IsQuoted.depth_eq {body p : List Char} (h : IsQuoted body) (d : ℤ) (hp : p <+: body) :
    ((Scan.mk d .quoted).run p).depth = d := by
  induction h generalizing p with
  | nil =>
    rw [List.prefix_nil.mp hp]
    rfl
  | char hq hb _ ih =>
    rcases List.prefix_cons_iff.mp hp with rfl | ⟨q, rfl, hq'⟩
    · rfl
    · rw [Scan.run_cons, Scan.step_char hq hb, ih hq']
  | escape _ ih =>
    rcases List.prefix_cons_iff.mp hp with rfl | ⟨q, rfl, hq⟩
    · rfl
    · rcases List.prefix_cons_iff.mp hq with rfl | ⟨r, rfl, hr⟩
      · rfl
      · show ((Scan.mk d .quoted).run r).depth = d
        exact ih hr

theorem IsString.balanced {cs : List Char} (h : IsString cs) : Balanced cs := by
  cases h with
  | @quoted body h =>
    have hq := h.isQuoted
    have hrun : ∀ d, (Scan.mk d .plain).run ('"' :: (body ++ ['"'])) = ⟨d, .plain⟩ := by
      intro d
      rw [Scan.run_cons, Scan.run_append]
      show ((Scan.mk d .quoted).run body).run ['"'] = _
      rw [hq.run_eq]
      rfl
    refine ⟨hrun, fun d p hp => ?_⟩
    rcases List.prefix_cons_iff.mp hp with rfl | ⟨q, rfl, hinner⟩
    · exact le_refl d
    · rcases List.prefix_concat_iff.mp hinner with rfl | hinner
      · rw [hrun]
      · exact (hq.depth_eq d hinner).ge

theorem isInert_of_isWhitespace {c : Char} (h : isWhitespace c = true) : isInert c = true := by
  simp only [isWhitespace, Bool.or_eq_true, beq_iff_eq] at h
  rcases h with ((rfl | rfl) | rfl) | rfl <;> decide

theorem balanced_whitespace {cs : List Char} (h : ∀ c ∈ cs, isWhitespace c = true) :
    Balanced cs :=
  balanced_of_inert fun c hc => isInert_of_isWhitespace (h c hc)

theorem isInert_of_isDigit {c : Char} (h : c.isDigit = true) : isInert c = true := by
  have hne : ∀ c' : Char, c'.isDigit = false → c ≠ c' := by
    rintro c' hc' rfl
    rw [h] at hc'
    exact absurd hc' nofun
  simp [isInert, hne '"' rfl, hne '{' rfl, hne '[' rfl, hne '}' rfl, hne ']' rfl]

theorem isInert_of_isDigits {cs : List Char} (h : IsDigits cs) : ∀ c ∈ cs, isInert c = true :=
  fun c hc => isInert_of_isDigit (h.2 c hc)

/-- A number has neither brackets nor quotes. -/
theorem IsUnsigned.isInert {cs : List Char} (h : IsUnsigned cs) : ∀ c ∈ cs, isInert c = true := by
  cases h with
  | @parts int frac exp hi hf he =>
    refine List.forall_mem_append.mpr ⟨List.forall_mem_append.mpr ⟨isInert_of_isDigits hi.1, ?_⟩, ?_⟩
    · cases hf with
      | none => simp
      | some h => exact List.forall_mem_cons.mpr ⟨by decide, isInert_of_isDigits h⟩
    · have hletter : ['e', 'E'].all Json.isInert = true := by decide
      have hsign : ['+', '-'].all Json.isInert = true := by decide
      cases he with
      | none => simp
      | unsigned he h =>
        exact List.forall_mem_cons.mpr
          ⟨List.all_eq_true.mp hletter _ he, isInert_of_isDigits h⟩
      | signed he hs h =>
        exact List.forall_mem_cons.mpr ⟨List.all_eq_true.mp hletter _ he,
          List.forall_mem_cons.mpr ⟨List.all_eq_true.mp hsign _ hs, isInert_of_isDigits h⟩⟩

theorem IsNumber.isInert {cs : List Char} (h : IsNumber cs) : ∀ c ∈ cs, isInert c = true := by
  cases h with
  | plain h => exact h.isInert
  | minus h => exact List.forall_mem_cons.mpr ⟨by decide, h.isInert⟩

theorem balanced_commaSeparated {pieces : List (List Char)} (h : ∀ p ∈ pieces, Balanced p) :
    Balanced (commaSeparated pieces) := by
  induction pieces with
  | nil => exact balanced_nil
  | cons piece pieces ih =>
    have hpiece := h piece List.mem_cons_self
    cases pieces with
    | nil => exact hpiece
    | cons piece' pieces =>
      have hrest := ih fun p hp => h p (List.mem_cons_of_mem piece hp)
      exact hpiece.append ((balanced_inert (by decide)).append hrest)

/-- An object whose values are balanced is, up to its last character, above its start. -/
theorem balanced_members {ws : List Char} {members : List Member}
    (hws : ∀ c ∈ ws, isWhitespace c = true)
    (hpad : ∀ m ∈ members, ∀ c ∈ m.pre ++ m.post, isWhitespace c = true)
    (hname : ∀ m ∈ members, IsString m.name) (hvalue : ∀ m ∈ members, Balanced m.value) :
    Balanced (ws ++ commaSeparated (members.map Member.text)) := by
  refine (balanced_whitespace hws).append (balanced_commaSeparated fun text htext => ?_)
  obtain ⟨m, hm, rfl⟩ := List.mem_map.mp htext
  have hpre := balanced_whitespace fun c hc => hpad m hm c (List.mem_append_left _ hc)
  have hpost := balanced_whitespace fun c hc => hpad m hm c (List.mem_append_right _ hc)
  exact ((hpre.append (hname m hm).balanced).append hpost).append
    ((balanced_inert (by decide)).append (hvalue m hm))

theorem IsJson.balanced {cs : List Char} (h : IsJson cs) : Balanced cs := by
  induction h with
  | literal h =>
    refine balanced_of_inert (List.all_eq_true.mp ?_)
    simp only [List.mem_cons, List.not_mem_nil, or_false] at h
    rcases h with rfl | rfl | rfl <;> decide
  | number h => exact balanced_of_inert h.isInert
  | string h => exact h.balanced
  | array hws _ ih =>
    exact ((balanced_whitespace hws).append (balanced_commaSeparated ih)).bracket
      (Or.inr ⟨rfl, rfl⟩)
  | object hws hpad hname _ ih =>
    exact (balanced_members hws hpad hname ih).bracket (Or.inl ⟨rfl, rfl⟩)
  | pad hpre hpost _ ih =>
    exact ((balanced_whitespace hpre).append ih).append (balanced_whitespace hpost)

/-! ## Prefixes of objects -/

theorem IsObject.isJson {cs : List Char} (h : IsObject cs) : IsJson cs := by
  cases h with
  | intro hws hpad hname hvalue => exact .object hws hpad hname hvalue

/-- An object starts with its opening brace. -/
theorem IsObject.head? {cs : List Char} (h : IsObject cs) : cs.head? = some '{' := by
  cases h with
  | intro => rfl

/-- An object ends with its closing brace. -/
theorem IsObject.getLast? {cs : List Char} (h : IsObject cs) : cs.getLast? = some '}' := by
  cases h with
  | intro => rw [objectText, ← List.cons_append, List.getLast?_concat]

/-- **A torn object is not JSON**: no proper prefix of an object is a JSON text. -/
theorem not_isJson_of_prefix {cs p : List Char} (h : IsObject cs) (hp : p <+: cs)
    (hne : p ≠ []) (hproper : p ≠ cs) : ¬ IsJson p := by
  intro hjson
  cases h with
  | intro hws hpad hname hvalue =>
    have hbody := balanced_members hws hpad hname fun m hm => (hvalue m hm).balanced
    have habove := hbody.above (d := 0) (Or.inl ⟨rfl, rfl⟩) hp hne hproper
    rw [hjson.balanced.run_eq] at habove
    exact absurd habove (lt_irrefl 0)

/-! ## Nesting -/

/-- A JSON text whose arrays are nested at most so deep. -/
inductive IsNested : ℕ → List Char → Prop where
  /-- `null`, `true` or `false` -/
  | literal {n : ℕ} {cs : List Char} :
      cs ∈ [['n', 'u', 'l', 'l'], ['t', 'r', 'u', 'e'], ['f', 'a', 'l', 's', 'e']] → IsNested n cs
  /-- a number -/
  | number {n : ℕ} {cs : List Char} : IsNumber cs → IsNested n cs
  /-- a string -/
  | string {n : ℕ} {cs : List Char} : IsString cs → IsNested n cs
  /-- an array -/
  | array {n : ℕ} {ws : List Char} {elements : List (List Char)} :
      (∀ c ∈ ws, isWhitespace c = true) → (∀ e ∈ elements, IsNested n e) →
      IsNested (n + 1) ('[' :: (ws ++ commaSeparated elements ++ [']']))
  /-- an object -/
  | object {n : ℕ} {ws : List Char} {members : List Member} :
      (∀ c ∈ ws, isWhitespace c = true) →
      (∀ m ∈ members, ∀ c ∈ m.pre ++ m.post, isWhitespace c = true) →
      (∀ m ∈ members, IsString m.name) → (∀ m ∈ members, IsNested n m.value) →
      IsNested n (objectText ws members)
  /-- whitespace around a value -/
  | pad {n : ℕ} {pre cs post : List Char} :
      (∀ c ∈ pre, isWhitespace c = true) → (∀ c ∈ post, isWhitespace c = true) → IsNested n cs →
      IsNested n (padded pre cs post)

/-- A JSON array without whitespace around it, nested at most so deep. -/
inductive IsNestedArray : ℕ → List Char → Prop where
  /-- the array of the grammar -/
  | intro {n : ℕ} {ws : List Char} {elements : List (List Char)} :
      (∀ c ∈ ws, isWhitespace c = true) → (∀ e ∈ elements, IsNested n e) →
      IsNestedArray (n + 1) ('[' :: (ws ++ commaSeparated elements ++ [']']))

theorem IsNested.mono {n m : ℕ} {cs : List Char} (h : IsNested n cs) (hle : n ≤ m) :
    IsNested m cs := by
  induction h generalizing m with
  | literal h => exact .literal h
  | number h => exact .number h
  | string h => exact .string h
  | @array n ws elements hws _ ih =>
    obtain ⟨k, rfl⟩ : ∃ k, m = k + 1 := ⟨m - 1, by omega⟩
    exact .array hws fun e he => ih e he (Nat.le_of_succ_le_succ hle)
  | object hws hpad hname _ ih => exact .object hws hpad hname fun m hm => ih m hm hle
  | pad hpre hpost _ ih => exact .pad hpre hpost (ih hle)

theorem length_le_commaSeparated {piece : List Char} {pieces : List (List Char)}
    (h : piece ∈ pieces) : piece.length ≤ (commaSeparated pieces).length := by
  induction pieces with
  | nil => cases h
  | cons first pieces ih =>
    cases pieces with
    | nil => rw [List.mem_singleton.mp h, commaSeparated]
    | cons second pieces =>
      simp only [commaSeparated, List.length_append, List.length_cons]
      rcases List.mem_cons.mp h with rfl | h
      · exact Nat.le_add_right _ _
      · have hle := ih h
        omega

/-- A JSON text is nested no deeper than it is long. -/
theorem IsJson.isNested_length {cs : List Char} (h : IsJson cs) : IsNested cs.length cs := by
  induction h with
  | literal h => exact .literal h
  | number h => exact .number h
  | string h => exact .string h
  | @array ws elements hws _ ih =>
    refine .array hws fun e he => (ih e he).mono ?_
    have hle := length_le_commaSeparated he
    simp only [List.length_append]
    omega
  | @object ws members hws hpad hname _ ih =>
    refine .object hws hpad hname fun m hm => (ih m hm).mono ?_
    have hle := length_le_commaSeparated (List.mem_map_of_mem (f := Member.text) hm)
    simp only [objectText, Member.text, List.length_append, List.length_cons] at hle ⊢
    omega
  | pad hpre hpost _ ih =>
    refine .pad hpre hpost (ih.mono ?_)
    simp only [padded, List.length_append]
    omega

end Json

end MeetilyLocal
