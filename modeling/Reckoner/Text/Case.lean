/-!
# Letter case

Only ASCII letters change case here. That is enough for every word the library compares with: no
character outside ASCII has one of their letters as its lower-case form.
-/

set_option autoImplicit false

namespace Reckoner.Text

/-- The text with its ASCII letters in lower case. -/
def lowerCase (text : String) : String :=
  String.ofList (text.toList.map Char.toLower)

/-- The text with its ASCII letters in upper case. -/
def upperCase (text : String) : String :=
  String.ofList (text.toList.map Char.toUpper)

end Reckoner.Text
