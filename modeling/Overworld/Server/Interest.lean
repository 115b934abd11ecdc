import Overworld.Grid.Index
import Overworld.Number.Reading
import Overworld.Text.Blank

set_option autoImplicit false

/-!
The part of the world that one client is shown: a rectangle around its entity or at a fixed place,
and the entities that touch it. Each update tells which entities came into view and which left it.
-/

namespace Overworld

inductive Anchor
  /-- Around the owner, following it. -/
  | centered
  /-- With the top-left corner at a place of the world. -/
  | fixed (x y : Single)
deriving DecidableEq

/-- The text is neither of the two ways to write an anchor. -/
structure AnchorError where
  text : String
deriving DecidableEq

def AnchorError.message (error : AnchorError) : String :=
  "Expected `centered` or `x,y`, got '" ++ error.text ++ "'"

namespace Anchor

def isFinite : Anchor → Bool
  | .centered => true
  | .fixed x y => x.isFinite && y.isFinite

/-- The two coordinates around the first comma. -/
def corner? (text : List Char) : Option Anchor :=
  match text.dropWhile (· != ',') with
  | [] => none
  | _ :: after => do
    let x ← Reading.single? (trimBlank (text.takeWhile (· != ',')))
    let y ← Reading.single? (trimBlank after)
    let anchor := Anchor.fixed x y
    if anchor.isFinite then some anchor else none

/-- Reads `centered` in any case, or a finite top-left corner `x,y`; blanks around the parts do not
count. -/
def ofText (text : String) : Except AnchorError Anchor :=
  let trimmed := trimBlank text.toList
  if Reading.lowercase trimmed = "centered".toList then .ok .centered
  else
    match corner? trimmed with
    | some anchor => .ok anchor
    | none => .error ⟨text⟩

/-- The anchor as reports show it. -/
def text : Anchor → String
  | .centered => "Centered"
  | .fixed x y => "Fixed \x7b x: " ++ x.text .precise ++ ", y: " ++ y.text .precise ++ " \x7d"

end Anchor

structure InterestRules where
  width : Single
  height : Single
  anchor : Anchor
deriving DecidableEq

/-- A view of 640 by 480 units around the owner. -/
def InterestRules.standard : InterestRules := ⟨⟨0x44200000⟩, ⟨0x43f00000⟩, .centered⟩

/-- A rectangle of the world, by its top-left corner. -/
structure Area where
  origin : Vec3
  width : Single
  height : Single
deriving DecidableEq

def Area.rect (area : Area) : Rect :=
  .ofCorners area.origin.x area.origin.y (area.origin.x + area.width) (area.origin.y + area.height)

def InterestRules.areaFor (rules : InterestRules) (position : Vec3) : Area :=
  let origin : Vec3 := match rules.anchor with
    | .centered =>
      ⟨position.x - rules.width * .half, position.y - rules.height * .half, position.z⟩
    | .fixed x y => ⟨x, y, position.z⟩
  ⟨origin, rules.width, rules.height⟩

/-- What changed in a view; both lists ascending. -/
structure InterestDelta where
  entered : List EntityId
  left : List EntityId
deriving DecidableEq

def InterestDelta.isEmpty (delta : InterestDelta) : Bool :=
  delta.entered.isEmpty && delta.left.isEmpty

structure Interest where
  rules : InterestRules
  /-- The entities in view, ascending. -/
  visible : List EntityId
  area : Option Area
deriving DecidableEq

namespace Interest

def ofRules (rules : InterestRules) : Interest := ⟨rules, [], none⟩

/-- Looks again from `position`. The owner is never part of its own view. -/
def update (interest : Interest) (owner : EntityId) (position : Vec3) (grid : Grid) :
    InterestDelta × Interest :=
  let area := interest.rules.areaFor position
  let now := (grid.query (.rect area.rect)).filter (· != owner)
  (⟨now.filter (!interest.visible.contains ·), interest.visible.filter (!now.contains ·)⟩,
    { interest with visible := now, area := some area })

def isVisible (interest : Interest) (entity : EntityId) : Bool := interest.visible.contains entity

/-- Takes an entity that is gone out of the view at once. -/
def forget (interest : Interest) (entity : EntityId) : Interest :=
  { interest with visible := interest.visible.filter (· != entity) }

/-- Empties the view, so that the next update reports all that is in it as entered. -/
def reset (interest : Interest) : Interest := { interest with visible := [], area := none }

end Interest

end Overworld
