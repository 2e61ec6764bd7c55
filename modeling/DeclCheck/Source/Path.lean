import DeclCheck.Text

/-!
# Paths

A path is a text whose parts are divided by slashes. Its clean form has no empty part, no `.`
and no `..` that a part before it cancels; cleaning looks at the text alone.
-/
namespace DeclCheck.Path

def slash : UInt8 := 47

def here : Text := "."

def up : Text := ".."

def isAbsolute (p : Text) : Bool := p.head? == some slash

/-- Adds a part to the parts already clean, the last of them first. -/
def pushPart (rooted : Bool) (done : List Text) (part : Text) : List Text :=
  if part.isEmpty || part == here then done
  else if part == up then
    match done with
    | [] => if rooted then [] else [up]
    | last :: before => if last == up then up :: last :: before else before
  else part :: done

def parts (p : Text) : List Text :=
  ((Text.splitOn slash p).foldl (pushPart (isAbsolute p)) []).reverse

def ofParts (rooted : Bool) (ps : List Text) : Text :=
  let tail := Text.join [slash] ps
  if rooted then slash :: tail else if ps.isEmpty then here else tail

def clean (p : Text) : Text := ofParts (isAbsolute p) (parts p)

/-- The clean form of paths one below the other. Empty ones are left out, and nothing at all
gives the empty path. -/
def join (ps : List Text) : Text :=
  match ps.filter (!·.isEmpty) with
  | [] => []
  | qs => clean (Text.join [slash] qs)

/-- The clean form of a path that is taken below `cwd` unless it starts at the root. -/
def absolute (cwd p : Text) : Text := if isAbsolute p then clean p else join [cwd, p]

def dropCommon : List Text → List Text → List Text × List Text
  | a :: as, b :: bs => if a == b then dropCommon as bs else (a :: as, b :: bs)
  | as, bs => (as, bs)

/-- The way from `base` to `target`, if the texts of the two paths show one. -/
def relative? (base target : Text) : Option Text :=
  if isAbsolute base != isAbsolute target then none
  else
    match dropCommon (parts base) (parts target) with
    | ([], ts) => some (ofParts false ts)
    | (b :: bs, ts) =>
      if b == up then none
      else some (ofParts false ((b :: bs).map (fun _ => up) ++ ts))

/-- The last part of a path: `.` for the empty path, the slash for a path of slashes. -/
def base (p : Text) : Text :=
  if p.isEmpty then here
  else
    match (p.reverse.dropWhile (· == slash)).takeWhile (· != slash) with
    | [] => [slash]
    | last => last.reverse

/-- The clean form of what stands before the last part of a path. -/
def dir (p : Text) : Text := clean (p.reverse.dropWhile (· != slash)).reverse

/-- Does `d` lie at or above `p`, by the texts of the two directories? -/
def isAtOrAbove (d p : Text) : Bool := (p ++ [slash]).startsWith (d ++ [slash])

/-- How a climb from a directory ends. -/
inductive Climb where
  | arrived (dir : Text)
  /-- There is nothing above this one. -/
  | atTop (dir : Text)
  deriving DecidableEq, Repr

/-- Climbs from `d` to the first directory at or above `p`, in at most `steps` steps. -/
def climb (p : Text) : Nat → Text → Climb
  | 0, d => .atTop d
  | steps + 1, d =>
    if isAtOrAbove d p then .arrived d
    else if dir d == d then .atTop d
    else climb p steps (dir d)

/-- The directory at or above `d` and those of the files; the search ends at the top. -/
def commonDirFrom (d : Text) : List Text → Text
  | [] => d
  | f :: fs =>
    match climb (dir f) (d.length + 2) d with
    | .arrived d => commonDirFrom d fs
    | .atTop d => d

/-- The directory at or above those of all files; `.` without files. -/
def commonDir : List Text → Text
  | [] => here
  | f :: fs => commonDirFrom (dir f) fs

/-- The end of the last part of a path from its last point on. -/
def ext (p : Text) : Text :=
  let last := p.reverse.takeWhile (· != slash)
  if last.contains 46 then (last.takeWhile (· != 46) ++ [46]).reverse else []

/-- Does the clean form of a relative path lead out of where it starts? -/
def leadsUp (p : Text) : Bool := p == up || p.startsWith (up ++ [slash])

/-- The path as seen from `base`: relative if it lies there or below, absolute otherwise. -/
def relativeTo (cwd base p : Text) : Text :=
  let target := absolute cwd p
  match relative? (absolute cwd base) target with
  | some rel => if leadsUp rel then clean target else clean rel
  | none => clean target

end DeclCheck.Path
