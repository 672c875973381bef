import AlignPlan.Planning.Brackets
import AlignPlan.Text.Blank

/-! Texts read as expressions: words and lists of expressions in round brackets. A word is a
longest run of characters that are neither white space nor brackets. A text that can be read has
balanced brackets. -/
namespace AlignPlan.Planning

inductive Token
  | opening
  | closing
  | word (text : String)
  deriving DecidableEq

inductive Expression
  | word (text : String)
  | list (parts : List Expression)

/-- Characters that end a word. -/
def isDelimiter (c : Char) : Bool := c == '(' || c == ')' || Text.isBlank c

/-- A delimiter that is no bracket only ends the word before it. -/
def bracket : Char → List Token
  | '(' => [.opening]
  | ')' => [.closing]
  | _ => []

/-- The characters between two delimiters are one word, if there are any. -/
def wordOf (run : List Char) : List Token :=
  if run.isEmpty then [] else [.word (String.ofList run)]

/-- The tokens of characters that come after a run without delimiters. -/
def tokensFrom : List Char → List Char → List Token
  | run, [] => wordOf run
  | run, c :: cs =>
    if isDelimiter c then wordOf run ++ bracket c ++ tokensFrom [] cs
    else tokensFrom (run ++ [c]) cs

def tokens (text : String) : List Token := tokensFrom [] text.toList

/-- Collects the expressions of a list that is being read, inside lists that are still open. -/
def nest? : List (List Expression) → List Expression → List Token → Option (List Expression)
  | [], done, [] => some done
  | _ :: _, _, [] => none
  | outer, done, .word w :: rest => nest? outer (done ++ [.word w]) rest
  | outer, done, .opening :: rest => nest? (done :: outer) [] rest
  | before :: outer, done, .closing :: rest => nest? outer (before ++ [.list done]) rest
  | [], _, .closing :: _ => none

/-- The expressions that a text consists of, if its brackets close. -/
def read? (text : String) : Option (List Expression) := nest? [] [] (tokens text)

/-! ### Tokens of a text made of parts -/

def startsDelimited (text : String) : Bool := text.toList.head?.all isDelimiter

def endsDelimited (text : String) : Bool := text.toList.getLast?.all isDelimiter

/-- Non-empty, without white space and without brackets. -/
def isWord (text : String) : Bool := !text.toList.isEmpty && text.toList.all fun c => !isDelimiter c

theorem tokensFrom_append_of_starts {ys : List Char} (apart : ys.head?.all isDelimiter = true)
    (run xs : List Char) : tokensFrom run (xs ++ ys) = tokensFrom run xs ++ tokensFrom [] ys := by
  induction xs generalizing run with
  | nil =>
    cases ys with
    | nil => simp [tokensFrom, wordOf]
    | cons y ys =>
      have delimiter : isDelimiter y = true := by simpa using apart
      simp [tokensFrom, delimiter, wordOf]
  | cons x xs ih =>
    simp only [List.cons_append, tokensFrom, ih]
    split <;> simp

/-- No word reaches over a delimiter. -/
theorem tokens_append {a b : String} (apart : endsDelimited a = true ∨ startsDelimited b = true) :
    tokens (a ++ b) = tokens a ++ tokens b := by
  simp only [tokens, String.toList_append]
  rcases apart with ends | starts
  · rcases List.eq_nil_or_concat a.toList with empty | ⟨before, c, same⟩
    · simp [empty, tokensFrom, wordOf]
    -- Cut before the delimiter on both sides instead of behind it.
    · have delimiter : isDelimiter c = true := by simpa [endsDelimited, same] using ends
      have cut (cs : List Char) : tokensFrom [] (before ++ c :: cs) =
          tokensFrom [] before ++ tokensFrom [] (c :: cs) :=
        tokensFrom_append_of_starts (by simpa using delimiter) [] before
      rw [same, List.concat_eq_append, List.append_assoc, List.singleton_append, cut, cut]
      simp [tokensFrom, delimiter, wordOf]
  · exact tokensFrom_append_of_starts starts [] _

theorem tokensFrom_eq_wordOf {cs : List Char} (plain : cs.all (fun c => !isDelimiter c) = true)
    (run : List Char) : tokensFrom run cs = wordOf (run ++ cs) := by
  induction cs generalizing run with
  | nil => simp [tokensFrom]
  | cons c cs ih =>
    simp only [List.all_cons, Bool.and_eq_true, Bool.not_eq_true'] at plain
    simp [tokensFrom, plain.1, ih plain.2]

theorem tokens_of_isWord {w : String} (word : isWord w = true) : tokens w = [.word w] := by
  simp only [isWord, Bool.and_eq_true, Bool.not_eq_true'] at word
  simp [tokens, tokensFrom_eq_wordOf word.2, wordOf, word.1]

/-! ### Expressions written as tokens -/

mutual

def Expression.tokens : Expression → List Token
  | .word text => [.word text]
  | .list parts => .opening :: Expression.tokensAll parts ++ [.closing]

def Expression.tokensAll : List Expression → List Token
  | [] => []
  | e :: es => e.tokens ++ Expression.tokensAll es

end

namespace Expression

@[simp] theorem tokens_word (text : String) : (word text).tokens = [.word text] := by rw [tokens]

@[simp] theorem tokens_list (parts : List Expression) :
    (list parts).tokens = .opening :: tokensAll parts ++ [.closing] := by rw [tokens]

@[simp] theorem tokensAll_nil : tokensAll [] = [] := by rw [tokensAll]

@[simp] theorem tokensAll_cons (e : Expression) (es : List Expression) :
    tokensAll (e :: es) = e.tokens ++ tokensAll es := by rw [tokensAll]

@[simp] theorem tokensAll_append (es fs : List Expression) :
    tokensAll (es ++ fs) = tokensAll es ++ tokensAll fs := by
  induction es with
  | nil => simp
  | cons e es ih => simp [ih]

end Expression

mutual

theorem nest?_tokens (outer : List (List Expression)) (done : List Expression) (rest : List Token) :
    (e : Expression) → nest? outer done (e.tokens ++ rest) = nest? outer (done ++ [e]) rest
  | .word text => by simp [nest?]
  | .list parts => by
    have inside := nest?_tokensAll (done :: outer) [] (.closing :: rest) parts
    simpa [nest?] using inside

theorem nest?_tokensAll (outer : List (List Expression)) (done : List Expression)
    (rest : List Token) : (es : List Expression) →
      nest? outer done (Expression.tokensAll es ++ rest) = nest? outer (done ++ es) rest
  | [] => by simp
  | e :: es => by
    rw [Expression.tokensAll_cons, List.append_assoc, nest?_tokens, nest?_tokensAll]
    simp

end

/-- A text is read as the expressions that have its tokens. -/
theorem read?_eq_some {text : String} {es : List Expression}
    (same : tokens text = Expression.tokensAll es) : read? text = some es := by
  have all := nest?_tokensAll [] [] [] es
  rw [List.append_nil, List.nil_append] at all
  rw [read?, same, all, nest?]

theorem Expression.tokens_injective {x y : Expression} (same : x.tokens = y.tokens) : x = y := by
  have read (z : Expression) : nest? [] [] z.tokens = some [z] := by
    rw [← List.append_nil z.tokens, nest?_tokens, List.nil_append, nest?]
  have both := read x
  rw [same, read y] at both
  simpa [eq_comm] using both

/-! ### Balance -/

theorem nest?_wordOf (outer : List (List Expression)) (done : List Expression) (run : List Char)
    (rest : List Token) :
    ∃ done', nest? outer done (wordOf run ++ rest) = nest? outer done' rest := by
  unfold wordOf
  split
  · exact ⟨done, rfl⟩
  · exact ⟨_, by rw [List.singleton_append, nest?]⟩

/-- Brackets close in a text that can be read, as many as are open before it. -/
theorem closes_of_nest? {outer : List (List Expression)} {done es : List Expression}
    {run cs : List Char} (read : nest? outer done (tokensFrom run cs) = some es) :
    closes outer.length cs = true := by
  -- Lists that are open are brackets that are open. A run is no bracket, whatever is in it.
  induction cs generalizing outer done run with
  | nil =>
    rw [tokensFrom, ← List.append_nil (wordOf run)] at read
    obtain ⟨done', same⟩ := nest?_wordOf outer done run []
    rw [same] at read
    cases outer with
    | nil => rfl
    | cons before outer => simp [nest?] at read
  | cons c cs ih =>
    rw [tokensFrom] at read
    split at read
    next delimiter =>
      rw [List.append_assoc] at read
      obtain ⟨done', same⟩ := nest?_wordOf outer done run (bracket c ++ tokensFrom [] cs)
      rw [same] at read
      by_cases opening : c = '('
      · subst opening
        have inner : nest? (done' :: outer) [] (tokensFrom [] cs) = some es := by
          simpa [bracket, nest?] using read
        exact ih inner
      by_cases closing : c = ')'
      · subst closing
        cases outer with
        | nil => simp [bracket, nest?] at read
        | cons before outer =>
          have left : nest? outer (before ++ [.list done']) (tokensFrom [] cs) = some es := by
            simpa [bracket, nest?] using read
          exact ih left
      · have silent : bracket c = [] := by unfold bracket; split <;> simp_all
        rw [silent, List.nil_append] at read
        simpa [closes, opening, closing] using ih read
    next plain =>
      have opening : c ≠ '(' := by rintro rfl; exact plain rfl
      have closing : c ≠ ')' := by rintro rfl; exact plain rfl
      simpa [closes, opening, closing] using ih read

theorem isBalanced_of_read? {text : String} {es : List Expression} (read : read? text = some es) :
    isBalanced text = true := closes_of_nest? read

end AlignPlan.Planning
