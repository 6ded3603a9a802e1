import Scriptlet.Text.Basic
/-!
Completion of the word at the end of a line.
-/
namespace Scriptlet.Repl

def completionWords : List Text :=
  [utf8 "let", utf8 "const", utf8 "func", utf8 "if", utf8 "elif", utf8 "else", utf8 "for",
    utf8 "while", utf8 "print", utf8 "println", utf8 "time", utf8 "exit", utf8 "true",
    utf8 "false", utf8 "null"]

def lastWord (line : Text) : Text := (line.reverse.takeWhile Text.isLetter).reverse

def beforeLastWord (line : Text) : Text := (line.reverse.dropWhile Text.isLetter).reverse

/-- The line with its last word completed, once for each word that starts with it. A line that ends
with anything but a letter or an underscore has no word to complete. -/
def completions (line : Text) : List Text :=
  if lastWord line = [] then []
  else
    (completionWords.filter fun word => (lastWord line).isPrefixOf word).map
      fun word => beforeLastWord line ++ word

end Scriptlet.Repl
