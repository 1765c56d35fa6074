import TemplateEngine.Decimal.Layout
import TemplateEngine.Text.Quoted
import TemplateEngine.Value.Basic

/-! The two texts of a value: the one that templates write, and the one that listings show, which
names the type. -/
namespace TemplateEngine

/-- A float is written without an exponent, and a whole one without a point. -/
def renderedFloat : Decimal.Layout :=
  ⟨[], none, none⟩

/-- A float is listed with a point, and with an exponent from `1e16` on and below `1e-4`. -/
def listedFloat : Decimal.Layout :=
  ⟨['.', '0'], some 17, some (-4)⟩

def intText (n : Int64) : String :=
  String.ofList (Decimal.ofInt n.toInt)

def floatText (x : Float) : String :=
  String.ofList (renderedFloat.write x)

def boolText (b : Bool) : String :=
  if b then "true" else "false"

namespace Value

mutual

/-- The text that stands for a value in the output. Null is written as nothing, and strings inside
a container stand without quotes. -/
def render : Value → String
  | .null => ""
  | .bool b => boolText b
  | .int n => intText n
  | .float x => floatText x
  | .str s => s
  | .list items => "[" ++ ", ".intercalate (renderItems items) ++ "]"
  | .map entries => "\x7b" ++ ", ".intercalate (renderEntries entries) ++ "\x7d"
  | .object o => o.text
  | .template t => "<template " ++ t.name ++ ">"

def renderItems : List Value → List String
  | [] => []
  | v :: rest => render v :: renderItems rest

def renderEntries : List (String × Value) → List String
  | [] => []
  | (k, v) :: rest => (k ++ ": " ++ render v) :: renderEntries rest

end

/-- A sign is written on its own. -/
def intPieces (n : Int64) : List String :=
  let digits := String.ofList (Decimal.digits n.toInt.natAbs)
  if n.toInt < 0 then ["-", digits] else [digits]

def floatPieces (x : Float) : List String :=
  (Decimal.parts x).map String.ofList

mutual

/-- The pieces that the text of a value is written in, one after another. Each part of a container
is written on its own, and so is all that stands between them. -/
def pieces : Value → List String
  | .null => []
  | .bool b => [boolText b]
  | .int n => intPieces n
  | .float x => floatPieces x
  | .str s => [s]
  | .list items => "[" :: ([", "].intercalate (itemPieces items) ++ ["]"])
  | .map entries => "\x7b" :: ([", "].intercalate (entryPieces entries) ++ ["\x7d"])
  | .object o => [o.text]
  | .template t => ["<template ", t.name, ">"]

def itemPieces : List Value → List (List String)
  | [] => []
  | v :: rest => pieces v :: itemPieces rest

def entryPieces : List (String × Value) → List (List String)
  | [] => []
  | (k, v) :: rest => (k :: ": " :: pieces v) :: entryPieces rest

end

mutual

def listing : Value → String
  | .null => "Null"
  | .bool b => "Bool(" ++ boolText b ++ ")"
  | .int n => "Int(" ++ intText n ++ ")"
  | .float x => "Float(" ++ String.ofList (listedFloat.write x) ++ ")"
  | .str s => "Str(" ++ Text.quote s ++ ")"
  | .list items => "List([" ++ ", ".intercalate (listingItems items) ++ "])"
  | .map entries => "Map(\x7b" ++ ", ".intercalate (listingEntries entries) ++ "\x7d)"
  | .object o => "Object(" ++ o.listed ++ ")"
  | .template t => "Template(" ++ t.name ++ ")"

def listingItems : List Value → List String
  | [] => []
  | v :: rest => listing v :: listingItems rest

def listingEntries : List (String × Value) → List String
  | [] => []
  | (k, v) :: rest => (Text.quote k ++ ": " ++ listing v) :: listingEntries rest

end

theorem renderItems_eq_map (items : List Value) : renderItems items = items.map render := by
  induction items with
  | nil => rfl
  | cons v rest ih => simp [renderItems, ih]

theorem join_intercalate (sep : String) (texts : List (List String)) :
    String.join ([sep].intercalate texts) = sep.intercalate (texts.map String.join) := by
  induction texts with
  | nil => rfl
  | cons first rest ih =>
    cases rest with
    | nil => simp
    | cons second rest =>
      rw [List.intercalate_cons_cons, String.join_append, String.join_append, ih, List.map_cons,
        List.map_cons, List.map_cons, String.intercalate_cons_cons]
      simp

theorem join_intPieces (n : Int64) : String.join (intPieces n) = intText n := by
  rw [intPieces, intText, Decimal.ofInt]
  split <;> simp

theorem join_floatPieces (x : Float) : String.join (floatPieces x) = floatText x := by
  have hjoin (parts : List (List Char)) :
      String.join (parts.map String.ofList) = String.ofList parts.flatten := by
    induction parts with
    | nil => rfl
    | cons part rest ih =>
      rw [List.map_cons, String.join_cons, ih, List.flatten_cons, String.ofList_append]
  rw [floatPieces, hjoin, Decimal.flatten_parts x renderedFloat rfl fun _ => rfl, floatText]

mutual

/-- What is written is the text of the value. -/
theorem join_pieces (v : Value) : String.join v.pieces = v.render := by
  match v with
  | .null => rfl
  | .int n => exact join_intPieces n
  | .float x => exact join_floatPieces x
  | .list items =>
    simp [pieces, render, join_intercalate, map_join_itemPieces items, String.append_assoc]
  | .map entries =>
    simp [pieces, render, join_intercalate, map_join_entryPieces entries, String.append_assoc]
  | .bool _ | .str _ | .object _ | .template _ =>
    simp [pieces, render, String.append_assoc]

theorem map_join_itemPieces (items : List Value) :
    (itemPieces items).map String.join = renderItems items := by
  match items with
  | [] => rfl
  | v :: rest =>
    rw [itemPieces, renderItems, List.map_cons, join_pieces v, map_join_itemPieces rest]

theorem map_join_entryPieces (entries : List (String × Value)) :
    (entryPieces entries).map String.join = renderEntries entries := by
  match entries with
  | [] => rfl
  | (k, v) :: rest =>
    rw [entryPieces, renderEntries, List.map_cons, String.join_cons, String.join_cons,
      join_pieces v, map_join_entryPieces rest, String.append_assoc]

end

example : (Value.list [.int 1, .list [.int (-2)]]).pieces =
    ["[", "1", ", ", "[", "-", "2", "]", "]"] := by
  decide +kernel

end Value

end TemplateEngine
