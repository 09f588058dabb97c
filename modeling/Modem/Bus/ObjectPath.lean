/-! # Object paths

An object path is the root, or elements of ASCII letters, digits and underscores, each with a slash
in front of it. -/

namespace Modem.Bus.ObjectPath

def isElementChar (c : Char) : Bool := c.isAlphanum || c = '_'

/-- Reads element characters and the slashes between elements; `started` says that the current
element has a character already. -/
def elementsFrom (started : Bool) : List Char → Bool
  | [] => started
  | c :: rest =>
    if c = '/' then started && elementsFrom false rest
    else isElementChar c && elementsFrom true rest

def validChars : List Char → Bool
  | [] => false
  | c :: rest => c = '/' && (rest.isEmpty || elementsFrom false rest)

def valid (path : String) : Bool := validChars path.toList

/-- The path that a modem object has unless another one is chosen. -/
def defaultModem : String := "/org/freedesktop/ModemManager1/Modem/0"

/-- Whether `path` lies on the way from the root to `target`, `target` left out. -/
def isAncestor (path target : String) : Bool :=
  path = "/" && target ≠ "/" || (path.toList ++ ['/']).isPrefixOf target.toList

example : valid defaultModem = true := by decide

example : valid "/" = true ∧ valid "" = false ∧ valid "/a/" = false ∧ valid "//a" = false := by
  decide

end Modem.Bus.ObjectPath
