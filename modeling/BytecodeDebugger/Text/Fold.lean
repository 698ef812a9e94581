/-!
# Letter case

Words such as the names of styles, formats and answers are recognised in any letter case. All of
them are made of ASCII letters, so lower case is needed only as far as it can yield ASCII: the ASCII
capitals, and the KELVIN SIGN, which is the one character outside ASCII whose lower case is an ASCII
letter. Every other character is kept, and so keeps a text from being equal to an ASCII word.

Main fact: `toList_foldCase` (folding works character by character).
-/

namespace BytecodeDebugger.Text

/-- Lower case of one character, as far as ASCII words can tell. -/
def foldChar (c : Char) : Char :=
  if c = '\u212a' then 'k' else c.toLower

/-- Lower case of a text, as far as ASCII words can tell. -/
def foldCase (text : String) : String :=
  String.ofList (text.toList.map foldChar)

/-- The choice that a word names, letter by letter or in any case of ASCII letters. -/
def choose {α : Type} (nameOf : α → String) (choices : List α) (anyCase : Bool) (word : String) :
    Option α :=
  let key := fun s : String => if anyCase then s.toList.map Char.toLower else s.toList
  choices.find? fun a => key (nameOf a) == key word

@[simp] theorem toList_foldCase (text : String) :
    (foldCase text).toList = text.toList.map foldChar := by
  simp [foldCase]

@[simp] theorem length_foldCase (text : String) : (foldCase text).length = text.length := by
  simp [← String.length_toList]

end BytecodeDebugger.Text
