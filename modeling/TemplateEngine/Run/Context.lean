import TemplateEngine.Program.Template

/-! What a run of a template works on. A context belongs to one template: it holds a value for each
slot, the target of operations, and the contexts of the calls that the template has made. -/
namespace TemplateEngine

inductive ContextError where
  | unknownParameter (template name : String)
  | slotOutOfRange (template : String) (slot : SlotId)
  deriving DecidableEq, Repr

def ContextError.message : ContextError → String
  | .unknownParameter template name =>
    "template `" ++ template ++ "` has no parameter or variable `" ++ name ++ "`"
  | .slotOutOfRange template slot =>
    "slot " ++ toString slot ++ " is out of range for template `" ++ template ++ "`"

/-- Tells the triggers of a host program apart. -/
abbrev TriggerId := Nat

/-- `subs` has a place for each call site; the context of a call is made when the call is first
executed. Debug markers are reported to `trigger`, if there is one. -/
structure Context where
  template : TemplateId
  name : String
  slots : SlotMap
  values : List Value
  subs : List (Option Context)
  target : Value := .null
  trigger : Option TriggerId := none

namespace Context

/-- A context in which nothing has happened: every slot is null. -/
def fresh (t : Template) : Context where
  template := t.id
  name := t.name
  slots := t.slots
  values := List.replicate t.slots.size .null
  subs := List.replicate t.callSites none

def isFor (c : Context) (t : Template) : Bool :=
  c.template == t.id

def slot? (c : Context) (slot : SlotId) : Option Value :=
  c.values[slot]?

def get? (c : Context) (name : String) : Option Value :=
  (c.slots.lookup? name).bind c.slot?

/-- Puts a value into a slot that is known to be there. -/
def store (c : Context) (slot : SlotId) (v : Value) : Context :=
  { c with values := c.values.set slot v }

def setSlot (c : Context) (slot : SlotId) (v : Value) : Except ContextError Context :=
  if slot < c.values.length then .ok (c.store slot v) else .error (.slotOutOfRange c.name slot)

def set (c : Context) (name : String) (v : Value) : Except ContextError Context :=
  match c.slots.lookup? name with
  | some slot => c.setSlot slot v
  | none => .error (.unknownParameter c.name name)

def clearSlots (c : Context) : Context :=
  { c with values := c.values.map fun _ => .null }

/-- Forgets all values and all calls, but neither the target nor the trigger. -/
def reset (c : Context) : Context :=
  { c.clearSlots with subs := c.subs.map fun _ => none }

/-- The context for a call of `t` at a site. The one of the last call there is used again, with its
slots cleared, if that was a call of the same template. Target and trigger are the caller's. -/
def enter (c : Context) (site : SiteId) (t : Template) : Context :=
  let kept := (c.subs[site]?.join).filter (·.isFor t)
  let sub := (kept.map clearSlots).getD (fresh t)
  { sub with target := c.target, trigger := c.trigger }

def leave (c : Context) (site : SiteId) (sub : Context) : Context :=
  { c with subs := keep c.subs site }
where
  keep : List (Option Context) → SiteId → List (Option Context)
    | [], 0 => [some sub]
    | [], site + 1 => none :: keep [] site
    | _ :: rest, 0 => some sub :: rest
    | other :: rest, site + 1 => other :: keep rest site

end Context

end TemplateEngine
