import AlignPlan.Text.Unprintable

/-! A single character as error messages quote it. -/
namespace AlignPlan.Text

def hexDigits (n : Nat) : String := String.ofList (Nat.toDigits 16 n)

/-- Between apostrophes. A character without a visible form of its own is given by its code
point in braces; a double quote needs no escape here. -/
def quoteChar (c : Char) : String :=
  let body :=
    match c with
    | '\x00' => "\\0"
    | '\t' => "\\t"
    | '\n' => "\\n"
    | '\r' => "\\r"
    | '\'' => "\\'"
    | '\\' => "\\\\"
    | c => if isPrintable c then String.singleton c else "\\u\x7b" ++ hexDigits c.toNat ++ "\x7d"
  "'" ++ body ++ "'"

end AlignPlan.Text
