import TemplateEngine.Compile.Basic
import TemplateEngine.Proofs.Bytes.Layout
import TemplateEngine.Proofs.Bytes.Scan

/-! Compiling a source by its bytes. -/
namespace TemplateEngine

open Text (byteLength sliceFrom? takeBytes?)

/-- The byte at which a character last occurs in a text. -/
def Text.findLast? (c : Char) : List Char → Option Nat
  | [] => none
  | d :: cs => ((findLast? c cs).map (d.utf8Size + ·)).or (if d = c then some 0 else none)

def Text.Position.ofOffset? (source : List Char) (offset : Nat) : Option Position :=
  let before := (takeBytes? (min offset (byteLength source)) source).getD source
  let lineStart := ((findLast? '\n' before).map (· + 1)).getD 0
  (sliceFrom? before lineStart).map fun line =>
    { line := .ofNatClamp (before.count '\n' + 1), column := .ofNatClamp (line.length + 1) }

def Malformed.ofSpan? (template : String) (source : List Char) (span : Text.Span) (fault : Fault) :
    Option Malformed :=
  (Text.Position.ofOffset? source span.start).map fun position =>
    { template, span, position, fault }

def Emitter.finish? (e : Emitter) (source : List Char) : Lookup (Fault × Text.Span) Emitter :=
  match e.blocks with
  | [] => pure e.flush
  | block :: _ => do
    let position ← Text.Position.ofOffset? source block.opened.start
    throw (.unclosedBlock block.kind position, block.opened)

def Emitter.ofSource? (o : CompileOptions) (source : List Char) :
    Lookup (Fault × Text.Span) Emitter :=
  match Tables.declareParams {} o.params with
  | .error f => throw (f, ⟨0, 0⟩)
  | .ok tables => do
    let e ← addPieces? o { tables } (← Scanner.scanFrom? source 0 false)
    e.finish? source

def compile? (name : String) (source : List Char) (o : CompileOptions) : Lookup Malformed Program :=
  ExceptT.mk do
    match ← (Emitter.ofSource? o source).run with
    | .error (f, span) => return .error (← Malformed.ofSpan? name source span f)
    | .ok e => return .ok (e.program name o)

/-! Nothing is missing. -/

theorem Text.findLast?_eq_none {c : Char} {cs : List Char} (h : c ∉ cs) :
    findLast? c cs = none := by
  induction cs with
  | nil => rfl
  | cons d cs ih =>
    obtain ⟨hd, hcs⟩ := not_or.mp (List.mem_cons.not.mp h)
    rw [findLast?, ih hcs, if_neg (Ne.symm hd)]
    rfl

theorem Text.findLast?_append_cons {c : Char} {line : List Char} (hline : c ∉ line)
    (before : List Char) : findLast? c (before ++ c :: line) = some (byteLength before) := by
  induction before with
  | nil => rw [List.nil_append, findLast?, findLast?_eq_none hline, if_pos rfl]; rfl
  | cons d before ih => rw [List.cons_append, findLast?, ih, byteLength_cons]; rfl

/-- An offset beyond the end of a text stands for its end. -/
theorem Text.takeBytes?_min (source : List Char) (offset : Nat) :
    (takeBytes? (min offset (byteLength source)) source).getD source =
      (takeBytes? offset source).getD source := by
  obtain hlt | hle := Nat.lt_or_ge (byteLength source) offset
  · have hnone : takeBytes? offset source = none := by
      apply Option.eq_none_iff_forall_ne_some.mpr
      intro t ht
      obtain ⟨after, hsource, hlength⟩ := exists_of_takeBytes? ht
      rw [hsource, byteLength_append] at hlt
      omega
    have hall := takeBytes?_append source []
    rw [List.append_nil] at hall
    rw [Nat.min_eq_right (Nat.le_of_lt hlt), hnone, hall]
    rfl
  · rw [Nat.min_eq_left hle]

theorem Text.Position.ofOffset?_eq (source : List Char) (offset : Nat) :
    ofOffset? source offset = some (ofOffset source offset) := by
  rw [ofOffset?, ofOffset, takeBytes?_min, after]
  generalize (takeBytes? offset source).getD source = before
  by_cases hmem : '\n' ∈ before.reverse
  · obtain ⟨line, first, hbefore, hline⟩ := List.eq_append_cons_of_mem hmem
    have htake : before.reverse.takeWhile (· != '\n') = line := by
      have hpassed : ∀ c ∈ line, (c != '\n') = true := fun c hc =>
        bne_iff_ne.mpr (ne_of_mem_of_not_mem hc hline)
      rw [hbefore, List.takeWhile_append_of_pos hpassed]
      simp
    have hsplit : before = first.reverse ++ '\n' :: line.reverse := by
      rw [← List.reverse_reverse before, hbefore]
      simp
    have hlast : findLast? '\n' before = some (byteLength first.reverse) := by
      rw [hsplit]
      exact findLast?_append_cons (by simpa using hline) _
    have hline' : before = (first.reverse ++ ['\n']) ++ line.reverse := by simp [hsplit]
    have hslice : sliceFrom? before (byteLength first.reverse + 1) = some line.reverse :=
      sliceFrom?_of_eq hline' (byteLength_append first.reverse ['\n']).symm
    rw [htake, hlast, Option.map_some, Option.getD_some, hslice, Option.map_some,
      List.length_reverse]
  · have hnot : '\n' ∉ before := by simpa using hmem
    have htake : before.reverse.takeWhile (· != '\n') = before.reverse := by
      exact List.takeWhile_eq_self_iff.mpr fun c hc =>
        bne_iff_ne.mpr (ne_of_mem_of_not_mem hc hmem)
    have hslice : sliceFrom? before 0 = some before :=
      sliceFrom?_of_eq (List.nil_append before).symm rfl
    rw [htake, findLast?_eq_none hnot, Option.map_none, Option.getD_none, hslice, Option.map_some,
      List.length_reverse]

theorem Malformed.ofSpan?_eq (template : String) (source : List Char) (span : Text.Span)
    (fault : Fault) :
    ofSpan? template source span fault = some (ofSpan template source span fault) := by
  rw [ofSpan?, Text.Position.ofOffset?_eq]
  rfl

namespace Emitter

theorem finish?_eq (e : Emitter) (source : List Char) :
    e.finish? source = .total (e.finish source) := by
  unfold finish? finish
  cases e.blocks with
  | nil => rfl
  | cons block blocks =>
    simp only [Text.Position.ofOffset?_eq]
    rfl

theorem ofSource?_eq (o : CompileOptions) (source : List Char) :
    ofSource? o source = .total (ofSource o source) := by
  unfold ofSource? ofSource
  cases Tables.declareParams {} o.params with
  | error f => rfl
  | ok tables =>
    have hpieces := agrees_addPieces (o := o) (e := { tables }) (List.forall_mem_nil _)
      (Piece.ofSource source)
    dsimp only
    rw [Scanner.scanFrom?_source, Lookup.liftM_some_bind, hpieces.eq, Lookup.total_bind]
    simp only [finish?_eq]

end Emitter

theorem compile?_eq (name : String) (source : List Char) (o : CompileOptions) :
    compile? name source o = .total (compile name source o) := by
  unfold compile? compile
  rw [Emitter.ofSource?_eq]
  cases Emitter.ofSource o source with
  | ok e => rfl
  | error x =>
    obtain ⟨f, span⟩ := x
    simp only [Malformed.ofSpan?_eq]
    rfl

end TemplateEngine
