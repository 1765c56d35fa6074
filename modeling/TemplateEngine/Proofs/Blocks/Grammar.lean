import Mathlib.Data.List.Induction
import TemplateEngine.Compile.Basic

/-! The grammar of blocks, and the blocks that are open after a part of a source. A part can be
continued to a complete source exactly if none of its markers is misplaced among the blocks that are
open there. -/
namespace TemplateEngine

/-- A marker that belongs to no block. -/
def Directive.isLeaf : Directive → Bool
  | .openIf _ | .elsif _ | .otherwise | .closeIf | .openFor _ _ | .closeFor => false
  | .variable _ | .set _ _ | .call _ _ | .exec _ _ | .debug _ _ => true

mutual

/-- Pieces among which all blocks are complete. -/
inductive Body : List Piece → Prop where
  | nil : Body []
  | text {cs : List Char} {rest : List Piece} : Body rest → Body (.text cs :: rest)
  | leaf {d : Directive} {span : Text.Span} {rest : List Piece} :
    d.isLeaf = true → Body rest → Body (.directive d span :: rest)
  | cond {c : List Char} {opened closed : Text.Span} {hasElse : Bool}
      {body more rest : List Piece} :
    Body body → Branches hasElse more → Body rest →
      Body (.directive (.openIf c) opened :: (body ++ more ++ .directive .closeIf closed :: rest))
  | loop {var container : List Char} {opened closed : Text.Span} {body rest : List Piece} :
    Body body → Body rest →
      Body (.directive (.openFor var container) opened ::
        (body ++ .directive .closeFor closed :: rest))

/-- What comes between the first branch of an `if` and its closing: more branches, and at most one
`else`, which is the last of them. -/
inductive Branches : Bool → List Piece → Prop where
  | nil : Branches false []
  | elsif {c : List Char} {span : Text.Span} {more body : List Piece} :
    Branches false more → Body body → Branches false (more ++ .directive (.elsif c) span :: body)
  | otherwise {span : Text.Span} {more body : List Piece} :
    Branches false more → Body body → Branches true (more ++ .directive .otherwise span :: body)

end

/-- A block that is open, and whether it has its `else`. -/
structure Opened where
  kind : BlockKind
  opened : Text.Span
  hasElse : Bool := false

/-- After these pieces these blocks are open, the innermost first. -/
inductive Opens : List Piece → List Opened → Prop where
  | closed {body : List Piece} : Body body → Opens body []
  | openIf {c : List Char} {span : Text.Span} {before body : List Piece} {blocks : List Opened} :
    Opens before blocks → Body body →
      Opens (before ++ .directive (.openIf c) span :: body) (⟨.cond, span, false⟩ :: blocks)
  | elsif {c : List Char} {span opened : Text.Span} {before body : List Piece}
      {blocks : List Opened} :
    Opens before (⟨.cond, opened, false⟩ :: blocks) → Body body →
      Opens (before ++ .directive (.elsif c) span :: body) (⟨.cond, opened, false⟩ :: blocks)
  | otherwise {span opened : Text.Span} {before body : List Piece} {blocks : List Opened} :
    Opens before (⟨.cond, opened, false⟩ :: blocks) → Body body →
      Opens (before ++ .directive .otherwise span :: body) (⟨.cond, opened, true⟩ :: blocks)
  | openFor {var container : List Char} {span : Text.Span} {before body : List Piece}
      {blocks : List Opened} :
    Opens before blocks → Body body →
      Opens (before ++ .directive (.openFor var container) span :: body)
        (⟨.loop, span, false⟩ :: blocks)

/-- Some continuation makes these pieces complete. -/
def Viable (pieces : List Piece) : Prop :=
  ∃ more, Body (pieces ++ more)

/-! What a marker does to the open blocks, and what is wrong with one that is misplaced. -/

def misplacedCloser? (found : BlockKind) : List Opened → Option Fault
  | [] => some (.unmatchedCloser found)
  | block :: _ => if block.kind = found then none else some (.mismatchedCloser block.kind found)

def misplacedBranch? (branch : BranchKind) : List Opened → Option Fault
  | ⟨.cond, _, false⟩ :: _ => none
  | ⟨.cond, _, true⟩ :: _ => some (.branchAfterElse branch)
  | _ => some (.branchOutsideIf branch)

def misplaced? (blocks : List Opened) : Directive → Option Fault
  | .closeIf => misplacedCloser? .cond blocks
  | .closeFor => misplacedCloser? .loop blocks
  | .elsif _ => misplacedBranch? .elsif blocks
  | .otherwise => misplacedBranch? .otherwise blocks
  | .openIf _ | .openFor _ _ => none
  | .variable _ | .set _ _ | .call _ _ | .exec _ _ | .debug _ _ => none

/-- An `else` or `elsif` that is not misplaced stands in an `if` that has no `else` yet. -/
theorem cond_of_misplacedBranch? {b : BranchKind} {blocks : List Opened}
    (h : misplacedBranch? b blocks = none) :
    ∃ opened rest, blocks = ⟨.cond, opened, false⟩ :: rest := by
  unfold misplacedBranch? at h
  split at h
  · exact ⟨_, _, rfl⟩
  · cases h
  · cases h

/-- The innermost block is of the kind that a closer asks for. -/
theorem head_of_misplacedCloser? {found : BlockKind} {blocks : List Opened}
    (h : misplacedCloser? found blocks = none) :
    ∃ opened hasElse rest, blocks = ⟨found, opened, hasElse⟩ :: rest := by
  unfold misplacedCloser? at h
  split at h
  · cases h
  · split at h
    · next block rest hkind => exact ⟨block.opened, block.hasElse, rest, by rw [← hkind]⟩
    · cases h

/-- The open blocks after a marker that is not misplaced. -/
def openAfter (blocks : List Opened) (span : Text.Span) : Directive → List Opened
  | .openIf _ => ⟨.cond, span, false⟩ :: blocks
  | .openFor _ _ => ⟨.loop, span, false⟩ :: blocks
  | .closeIf | .closeFor => blocks.tail
  | .otherwise => blocks.modifyHead fun block => { block with hasElse := true }
  | .elsif _ => blocks
  | .variable _ | .set _ _ | .call _ _ | .exec _ _ | .debug _ _ => blocks

/-- The open blocks after some pieces, or the first misplaced marker. -/
def openBlocks (blocks : List Opened) : List Piece → Except (Fault × Text.Span) (List Opened)
  | [] => .ok blocks
  | .text _ :: rest => openBlocks blocks rest
  | .fault f span :: _ => .error (f, span)
  | .directive d span :: rest =>
    match misplaced? blocks d with
    | some f => .error (f, span)
    | none => openBlocks (openAfter blocks span d) rest

theorem openBlocks_append (blocks : List Opened) (before after : List Piece) :
    openBlocks blocks (before ++ after) =
      openBlocks blocks before >>= fun blocks => openBlocks blocks after := by
  induction before generalizing blocks with
  | nil => rfl
  | cons p rest ih =>
    cases p with
    | text cs => exact ih blocks
    | fault f span => rfl
    | directive d span =>
      rw [List.cons_append, openBlocks, openBlocks]
      split
      · rfl
      · exact ih _

theorem openBlocks_append_of_ok {blocks blocks' : List Opened} {before : List Piece}
    (h : openBlocks blocks before = .ok blocks') (after : List Piece) :
    openBlocks blocks (before ++ after) = openBlocks blocks' after := by
  rw [openBlocks_append, h]
  rfl

theorem openBlocks_leaf {d : Directive} (h : d.isLeaf = true) (blocks : List Opened)
    (span : Text.Span) (rest : List Piece) :
    openBlocks blocks (.directive d span :: rest) = openBlocks blocks rest := by
  match d, h with
  | .variable _, _ | .set _ _, _ | .call _ _, _ | .exec _ _, _ | .debug _ _, _ => rfl

mutual

/-- Complete pieces leave the open blocks as they are. -/
theorem Body.openBlocks_eq {pieces : List Piece} (h : Body pieces) (blocks : List Opened) :
    openBlocks blocks pieces = .ok blocks := by
  match h with
  | .nil => rfl
  | .text hrest => exact hrest.openBlocks_eq blocks
  | .leaf hleaf hrest =>
    rw [openBlocks_leaf hleaf]
    exact hrest.openBlocks_eq blocks
  | @Body.cond _ opened _ _ _ _ _ hbody hmore hrest =>
    have hinner := openBlocks_append_of_ok (hbody.openBlocks_eq (⟨.cond, opened, false⟩ :: blocks))
    have hbranches := openBlocks_append_of_ok (hmore.openBlocks_eq opened blocks)
    rw [openBlocks, misplaced?, List.append_assoc]
    refine (hinner _).trans ((hbranches _).trans ?_)
    exact hrest.openBlocks_eq blocks
  | @Body.loop _ _ opened _ _ _ hbody hrest =>
    have hinner := openBlocks_append_of_ok (hbody.openBlocks_eq (⟨.loop, opened, false⟩ :: blocks))
    rw [openBlocks, misplaced?]
    refine (hinner _).trans ?_
    exact hrest.openBlocks_eq blocks

theorem Branches.openBlocks_eq {hasElse : Bool} {pieces : List Piece} (h : Branches hasElse pieces)
    (opened : Text.Span) (blocks : List Opened) :
    openBlocks (⟨.cond, opened, false⟩ :: blocks) pieces =
      .ok (⟨.cond, opened, hasElse⟩ :: blocks) := by
  match h with
  | .nil => rfl
  | .elsif hmore hbody =>
    refine (openBlocks_append_of_ok (hmore.openBlocks_eq opened blocks) _).trans ?_
    exact hbody.openBlocks_eq _
  | .otherwise hmore hbody =>
    refine (openBlocks_append_of_ok (hmore.openBlocks_eq opened blocks) _).trans ?_
    exact hbody.openBlocks_eq _

end

theorem Body.append {before after : List Piece} (h : Body before) (h' : Body after) :
    Body (before ++ after) := by
  match h with
  | .nil => exact h'
  | .text hrest => exact .text (hrest.append h')
  | .leaf hleaf hrest => exact .leaf hleaf (hrest.append h')
  | .cond hbody hmore hrest =>
    rw [List.cons_append, List.append_assoc _ _ after, List.cons_append]
    exact .cond hbody hmore (hrest.append h')
  | .loop hbody hrest =>
    rw [List.cons_append, List.append_assoc _ _ after, List.cons_append]
    exact .loop hbody (hrest.append h')

namespace Opens

variable {pieces : List Piece} {blocks : List Opened}

theorem openBlocks_eq (h : Opens pieces blocks) : openBlocks [] pieces = .ok blocks := by
  induction h with
  | closed hbody => exact hbody.openBlocks_eq []
  | openIf _ hbody ih => exact (openBlocks_append_of_ok ih _).trans (hbody.openBlocks_eq _)
  | elsif _ hbody ih => exact (openBlocks_append_of_ok ih _).trans (hbody.openBlocks_eq _)
  | otherwise _ hbody ih => exact (openBlocks_append_of_ok ih _).trans (hbody.openBlocks_eq _)
  | openFor _ hbody ih => exact (openBlocks_append_of_ok ih _).trans (hbody.openBlocks_eq _)

theorem append (h : Opens pieces blocks) {more : List Piece} (hmore : Body more) :
    Opens (pieces ++ more) blocks := by
  cases h with
  | closed hbody => exact .closed (hbody.append hmore)
  | openIf hbefore hbody =>
    rw [List.append_assoc, List.cons_append]
    exact .openIf hbefore (hbody.append hmore)
  | elsif hbefore hbody =>
    rw [List.append_assoc, List.cons_append]
    exact .elsif hbefore (hbody.append hmore)
  | otherwise hbefore hbody =>
    rw [List.append_assoc, List.cons_append]
    exact .otherwise hbefore (hbody.append hmore)
  | openFor hbefore hbody =>
    rw [List.append_assoc, List.cons_append]
    exact .openFor hbefore (hbody.append hmore)

/-- What stands between the opening of an `if` and the place where it is still open. -/
theorem exists_branches {opened : Text.Span} {hasElse : Bool}
    (h : Opens pieces (⟨.cond, opened, hasElse⟩ :: blocks)) :
    ∃ before c body more, pieces = before ++ .directive (.openIf c) opened :: (body ++ more) ∧
      Opens before blocks ∧ Body body ∧ Branches hasElse more := by
  generalize hall : (⟨.cond, opened, hasElse⟩ :: blocks : List Opened) = all at h
  induction h generalizing hasElse with
  | closed hbody => cases hall
  | openIf hbefore hbody _ =>
    cases hall
    exact ⟨_, _, _, [], by rw [List.append_nil], hbefore, hbody, .nil⟩
  | @elsif cond span _ _ last _ _ hbody ih =>
    cases hall
    obtain ⟨before, c, first, more, rfl, hbefore, hfirst, hmore⟩ := ih rfl
    refine ⟨before, c, first, more ++ .directive (.elsif cond) span :: last, ?_, hbefore, hfirst,
      .elsif hmore hbody⟩
    simp only [List.append_assoc, List.cons_append]
  | @otherwise span _ _ last _ _ hbody ih =>
    cases hall
    obtain ⟨before, c, first, more, rfl, hbefore, hfirst, hmore⟩ := ih rfl
    refine ⟨before, c, first, more ++ .directive .otherwise span :: last, ?_, hbefore, hfirst,
      .otherwise hmore hbody⟩
    simp only [List.append_assoc, List.cons_append]
  | openFor hbefore hbody _ => cases hall

theorem closeIf {opened : Text.Span} {hasElse : Bool}
    (h : Opens pieces (⟨.cond, opened, hasElse⟩ :: blocks)) (span : Text.Span) :
    Opens (pieces ++ [.directive .closeIf span]) blocks := by
  obtain ⟨before, c, body, more, rfl, hbefore, hbody, hmore⟩ := h.exists_branches
  rw [List.append_assoc, List.cons_append]
  exact hbefore.append (.cond hbody hmore .nil)

theorem closeFor {opened : Text.Span} {hasElse : Bool}
    (h : Opens pieces (⟨.loop, opened, hasElse⟩ :: blocks)) (span : Text.Span) :
    Opens (pieces ++ [.directive .closeFor span]) blocks := by
  cases h with
  | openFor hbefore hbody =>
    rw [List.append_assoc, List.cons_append]
    exact hbefore.append (.loop hbody .nil)

/-- A marker that is not misplaced continues the pieces. -/
theorem directive (h : Opens pieces blocks) {d : Directive} (hplace : misplaced? blocks d = none)
    (span : Text.Span) :
    Opens (pieces ++ [.directive d span]) (openAfter blocks span d) := by
  match d with
  | .openIf c => exact .openIf h .nil
  | .openFor var container => exact .openFor h .nil
  | .elsif c =>
    obtain ⟨opened, rest, rfl⟩ := cond_of_misplacedBranch? hplace
    exact .elsif h .nil
  | .otherwise =>
    obtain ⟨opened, rest, rfl⟩ := cond_of_misplacedBranch? hplace
    exact .otherwise h .nil
  | .closeIf =>
    obtain ⟨opened, hasElse, rest, rfl⟩ := head_of_misplacedCloser? hplace
    exact h.closeIf span
  | .closeFor =>
    obtain ⟨opened, hasElse, rest, rfl⟩ := head_of_misplacedCloser? hplace
    exact h.closeFor span
  | .variable _ | .set _ _ | .call _ _ | .exec _ _ | .debug _ _ => exact h.append (.leaf rfl .nil)

theorem of_openBlocks (h : openBlocks [] pieces = .ok blocks) : Opens pieces blocks := by
  induction pieces using List.reverseRecOn generalizing blocks with
  | nil =>
    cases h
    exact .closed .nil
  | append_singleton pieces p ih =>
    rw [openBlocks_append] at h
    cases hbefore : openBlocks [] pieces with
    | error f =>
      rw [hbefore] at h
      cases h
    | ok blocks' =>
      replace h : openBlocks blocks' [p] = .ok blocks := by rwa [hbefore] at h
      have hopens := ih hbefore
      cases p with
      | text cs =>
        cases h
        exact hopens.append (.text .nil)
      | fault f span => cases h
      | directive d span =>
        rw [openBlocks] at h
        split at h
        · cases h
        · next hplace =>
          cases h
          exact hopens.directive hplace span

theorem body (h : Opens pieces []) : Body pieces := by
  cases h with
  | closed hbody => exact hbody

/-- What is open can be closed. -/
theorem viable (h : Opens pieces blocks) : Viable pieces := by
  induction blocks generalizing pieces with
  | nil => exact ⟨[], by rw [List.append_nil]; exact h.body⟩
  | cons block rest ih =>
    have hcloser : ∃ d, Opens (pieces ++ [.directive d block.opened]) rest := by
      obtain ⟨kind, opened, hasElse⟩ := block
      cases kind with
      | cond => exact ⟨.closeIf, h.closeIf opened⟩
      | loop => exact ⟨.closeFor, h.closeFor opened⟩
    obtain ⟨d, hd⟩ := hcloser
    obtain ⟨more, hmore⟩ := ih hd
    rw [List.append_assoc] at hmore
    exact ⟨_, hmore⟩

end Opens

theorem opens_iff {pieces : List Piece} {blocks : List Opened} :
    Opens pieces blocks ↔ openBlocks [] pieces = .ok blocks :=
  ⟨Opens.openBlocks_eq, Opens.of_openBlocks⟩

theorem opens_iff_eq {pieces : List Piece} {blocks : List Opened}
    (h : openBlocks [] pieces = .ok blocks) (blocks' : List Opened) :
    Opens pieces blocks' ↔ blocks' = blocks := by
  rw [opens_iff, h]
  exact ⟨fun h => (Except.ok.inj h).symm, fun h => congrArg Except.ok h.symm⟩

theorem body_iff {pieces : List Piece} : Body pieces ↔ openBlocks [] pieces = .ok [] :=
  ⟨fun h => h.openBlocks_eq [], fun h => (Opens.of_openBlocks h).body⟩

theorem viable_iff {pieces : List Piece} :
    Viable pieces ↔ ∃ blocks, openBlocks [] pieces = .ok blocks := by
  constructor
  · rintro ⟨more, hbody⟩
    have hall := hbody.openBlocks_eq []
    rw [openBlocks_append] at hall
    obtain ⟨blocks, hblocks, -⟩ := bind_eq_ok hall
    exact ⟨blocks, hblocks⟩
  · rintro ⟨blocks, hblocks⟩
    exact (Opens.of_openBlocks hblocks).viable

theorem exists_of_openBlocks_error {blocks : List Opened} {pieces : List Piece} {f : Fault}
    {span : Text.Span} (h : openBlocks blocks pieces = .error (f, span))
    (hplain : ∀ g s, .fault g s ∉ pieces) :
    ∃ before d after blocks', pieces = before ++ .directive d span :: after ∧
      openBlocks blocks before = .ok blocks' ∧ misplaced? blocks' d = some f := by
  induction pieces generalizing blocks with
  | nil => cases h
  | cons p rest ih =>
    have hrest (g : Fault) (s : Text.Span) : Piece.fault g s ∉ rest :=
      fun hmem => hplain g s (List.mem_cons_of_mem _ hmem)
    cases p with
    | text cs =>
      obtain ⟨before, d, after, blocks', rfl, hbefore, hplace⟩ := ih h hrest
      exact ⟨.text cs :: before, d, after, blocks', rfl, hbefore, hplace⟩
    | fault g s => exact absurd List.mem_cons_self (hplain g s)
    | directive d s =>
      rw [openBlocks] at h
      split at h
      · next hplace =>
        cases h
        exact ⟨[], d, rest, blocks, rfl, rfl, hplace⟩
      · next hplace =>
        obtain ⟨before, d', after, blocks', rfl, hbefore, hplace'⟩ := ih h hrest
        refine ⟨.directive d s :: before, d', after, blocks', rfl, ?_, hplace'⟩
        rw [openBlocks, hplace]
        exact hbefore

/-- The first misplaced marker is the earliest one up to which no continuation is complete. -/
theorem earliest_of_openBlocks_error {pieces : List Piece} {f : Fault} {span : Text.Span}
    (h : openBlocks [] pieces = .error (f, span)) (hplain : ∀ g s, .fault g s ∉ pieces) :
    ∃ before d after blocks, pieces = before ++ .directive d span :: after ∧
      Viable before ∧ ¬Viable (before ++ [.directive d span]) ∧
      (∀ blocks', Opens before blocks' ↔ blocks' = blocks) ∧ misplaced? blocks d = some f := by
  obtain ⟨before, d, after, blocks, hpieces, hbefore, hplace⟩ := exists_of_openBlocks_error h hplain
  have hstuck : ¬Viable (before ++ [.directive d span]) := by
    rw [viable_iff]
    rintro ⟨blocks', hmarker⟩
    rw [openBlocks_append_of_ok hbefore, openBlocks, hplace] at hmarker
    cases hmarker
  exact ⟨before, d, after, blocks, hpieces, viable_iff.mpr ⟨blocks, hbefore⟩, hstuck,
    opens_iff_eq hbefore, hplace⟩

end TemplateEngine
