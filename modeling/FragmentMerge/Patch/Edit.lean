import FragmentMerge.Text.Finder
import FragmentMerge.Patch.Section

/-! Edits of a text. An edit looks at the text as it is, and tells from it whether it has been applied
before; there is no other memory. -/

namespace FragmentMerge

/-- Where an edit attaches: at a piece of text, or wherever a finder says. -/
inductive Anchor where
  | literal (s : String)
  | pattern (f : Finder)

namespace Anchor

def finder : Anchor → Finder
  | literal s => Finder.literal s.toList
  | pattern f => f

def finds (a : Anchor) (s : List Char) : List Find × List Char :=
  match a with
  | literal "" => ([], s)
  | a => a.finder.finds s

end Anchor

abbrev Replacer := List (Option (List Char)) → List Char

inductive Change where
  /-- Inserts lines after the line in which the anchor ends, moved by an offset. -/
  | insertLines (anchor : Anchor) (offset : Int) (payload : String)
  /-- Adds text after every anchor. -/
  | join (anchor : Anchor) (payload : String)
  /-- Puts text in the place of every anchor. -/
  | replace (anchor : Anchor) (payload : String)
  | replaceEach (finder : Finder) (replacer : Replacer)
  | transform (f : List Char → List Char)
  | nothing

namespace Change

def payload : Change → String
  | insertLines _ _ p => p
  | join _ p => p
  | replace _ p => p
  | _ => ""

/-- The line on which the last character before a place stands, counted from 0. -/
def anchorLine (upto : List Char) : Nat := Text.newlines upto.dropLast

/-- Where lines go: within the lines of the text, and before the empty piece after a final line
feed. -/
def position (line : Nat) (offset : Int) (pieces : List (List Char)) : Nat :=
  let last := if pieces.getLast? == some [] && 1 < pieces.length then pieces.length - 1
    else pieces.length
  min (line + 1 + offset).toNat last

/-- The text with the lines of the payload inserted. -/
def withLines (upto : List Char) (offset : Int) (payload s : List Char) : List Char :=
  let pieces := Text.lines s
  let spot := position (anchorLine upto) offset pieces
  Text.unlines (pieces.take spot ++ Text.lines payload ++ pieces.drop spot)

/-- The text after the change; none when there is no place to attach. -/
def run? (c : Change) (s : List Char) : Option (List Char) :=
  match c with
  | insertLines a offset payload =>
    (a.finder.upToFirst? s).map fun upto => withLines upto offset payload.toList s
  | join a payload =>
    (a.finder none s).map fun _ => Finder.replaceEach (fun x => x.text ++ payload.toList) (a.finds s)
  | replace a payload =>
    (a.finder none s).map fun _ => Finder.replaceEach (fun _ => payload.toList) (a.finds s)
  | replaceEach f replacer =>
    (f none s).map fun _ => Finder.replaceEach (fun x => replacer x.groups) (f.finds s)
  | transform f => some (f s)
  | nothing => some s

end Change

inductive EditOutcome where
  | applied
  | alreadyApplied
  | anchorMissing
  | skippedMode
  | noop
  deriving DecidableEq, Repr

def EditOutcome.text : EditOutcome → String
  | .applied => "applied"
  | .alreadyApplied => "already applied"
  | .anchorMissing => "anchor missing"
  | .skippedMode => "skipped in extension mode"
  | .noop => "no-op"

structure Edit where
  name : String
  change : Change
  /-- The text that shows that the edit has been applied; the payload, if it is not given. -/
  marker : Option String
  skips : Bool

namespace Edit

def of (name : String) (change : Change) : Edit := ⟨name, change, none, false⟩

def withMarker (e : Edit) (marker : String) : Edit := { e with marker := some marker }

/-- The edit left out where the client is extended instead of patched. -/
def skipping (e : Edit) : Edit := { e with skips := true }

def mark (e : Edit) : String := e.marker.getD e.change.payload

def isMarked (e : Edit) (s : List Char) : Bool :=
  !e.mark.isEmpty && Text.contains s e.mark.toList

def apply (e : Edit) (content : String) : EditOutcome × Option String :=
  let s := content.toList
  match e.change with
  | .nothing => (.noop, none)
  | c =>
    if e.isMarked s then (.alreadyApplied, none)
    else match c.run? s with
    | none => (.anchorMissing, none)
    | some t => if t = s then (.alreadyApplied, none) else (.applied, some (String.ofList t))

end Edit

end FragmentMerge
