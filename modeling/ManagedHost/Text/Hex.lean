/-
# Hexadecimal numbers

Numbers in lower-case hexadecimal digits, filled up with zeros to a given width.
-/

namespace ManagedHost.Text

/-- The lower-case hexadecimal digits of a number, at least `width` of them. -/
def hex (width n : Nat) : String :=
  let digits := Nat.toDigits 16 n
  String.ofList (List.replicate (width - digits.length) '0' ++ digits)

end ManagedHost.Text
