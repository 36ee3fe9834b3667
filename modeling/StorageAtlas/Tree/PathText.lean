import StorageAtlas.ValueFault

/-!
Paths as they are written: joining two of them, and the parts before and after
the last slash. Nothing here looks at a tree.
-/

namespace StorageAtlas.PathText

/-- A second path that begins with a slash stands alone. -/
def join (a b : Text) : Text :=
  if b.head? = some '/' then b
  else if a.isEmpty || a.getLast? = some '/' then a ++ b
  else a ++ '/' :: b

def joinAll (a : Text) (parts : List Text) : Text := parts.foldl join a

/-- A text as a part of a path that is opened. No path has a null character in it, and to open one
with such a part fails. -/
def part (t : Text) : Except ValueFault Text :=
  if t.contains '\x00' then .error .nullInPath else .ok t

def baseName (path : Text) : Text := Text.afterLast '/' path

/-- What stands before the last slash, without the slashes at its end unless it is nothing else. -/
def parent (path : Text) : Text :=
  let head := path.take (path.length - (baseName path).length)
  if head.all (· = '/') then head else Text.dropEndWhile (· = '/') head

/-- Without the slashes at the end; the root keeps one. -/
def trimRoot (path : Text) : Text :=
  match Text.dropEndWhile (· = '/') path with
  | [] => ['/']
  | t => t

example : parent "/a//b" = "/a" ∧ parent "/a" = "/" ∧ parent "a" = "" := by decide

end StorageAtlas.PathText
