import TemplateEngine.Proofs.Meaning.Tree
import TemplateEngine.Proofs.Syntax.Grammar
import TemplateEngine.Proofs.Syntax.Spelled

/-! How a tree is spelled in messages. Its text is read as tokens that depend on the tree alone; no
token of it runs into the next one. -/
namespace TemplateEngine.Expr

/-- How an operator is written. -/
def UnaryOp.punct : UnaryOp → Punct
  | .not => .bang
  | .neg => .minus

def BinaryOp.punct : BinaryOp → Punct
  | .add => .plus
  | .sub => .minus
  | .mul => .star
  | .div => .slash
  | .mod => .percent
  | .eq => .equal
  | .ne => .notEqual
  | .lt => .less
  | .le => .lessEqual
  | .gt => .greater
  | .ge => .greaterEqual
  | .and => .both
  | .or => .either

theorem UnaryOp.symbol_punct (op : UnaryOp) : op.punct.symbol = op.symbol := by
  cases op <;> rfl

theorem BinaryOp.symbol_punct (op : BinaryOp) : op.punct.symbol = op.symbol := by
  cases op <;> rfl

/-- The tokens of a literal. A negative number has two. -/
def literalTokens : Value → List Token
  | .int n => intTokens n
  | .bool b => [.name (boolText b)]
  | .null => [.name "null"]
  | .str s => [.str s]
  | _ => []

def Head.spelled : Head → List Token
  | .name s => [.name s]
  | .this => [.name "this"]
  | .literal v => literalTokens v

mutual

/-- The tokens of a tree as it is written in messages, without parentheses around its parts. -/
def Ast.spelled : Ast → List Token
  | .const v => literalTokens v
  | .path head steps => head.spelled ++ stepsSpelled steps
  | .unary op operand => .punct op.punct :: operand.spelled
  | .binary op left right => left.spelled ++ .punct op.punct :: right.spelled

def Step.spelled : Step → List Token
  | .field name => [.punct .dot, .name name]
  | .index i => .punct .openBracket :: (intTokens i ++ [.punct .closeBracket])
  | .key k => [.punct .openBracket, .str k, .punct .closeBracket]
  | .call name args =>
    .punct .dot :: .name name :: .punct .openParen ::
      (argumentsSpelled args ++ [.punct .closeParen])

def stepsSpelled : List Step → List Token
  | [] => []
  | step :: rest => step.spelled ++ stepsSpelled rest

def argumentsSpelled : List Ast → List Token
  | [] => []
  | arg :: rest => arg.spelled ++ moreSpelled rest

/-- Arguments with a comma in front of each. -/
def moreSpelled : List Ast → List Token
  | [] => []
  | arg :: rest => .punct .comma :: (arg.spelled ++ moreSpelled rest)

end

/-- A literal without quotes and without a point. -/
def IsLiteral : Value → Prop
  | .int n => n ≠ Int64.minValue
  | .bool _ | .null => True
  | _ => False

/-- What a path can start with: a number there has no sign. -/
def Head.Legible : Head → Prop
  | .name s => IsWord s ∧ s ∉ Text.reserved
  | .this => True
  | .literal (.int n) => 0 ≤ n.toInt
  | .literal v => IsLiteral v

mutual

/-- A tree as it is read from a text without quotes and without floating-point numbers. -/
def Ast.Legible : Ast → Prop
  | .const v => IsLiteral v
  | .path head steps =>
    head.Legible ∧ (steps = [] → ∀ v, head ≠ .literal v) ∧ stepsLegible steps
  | .unary op operand => (op = .neg → ¬Grammar.IsNumber operand) ∧ operand.Legible
  | .binary _ left right => left.Legible ∧ right.Legible

def Step.Legible : Step → Prop
  | .field name => IsWord name
  | .index i => i ≠ Int64.minValue
  | .key _ => False
  | .call name args => IsWord name ∧ argumentsLegible args

def stepsLegible : List Step → Prop
  | [] => True
  | step :: rest => step.Legible ∧ stepsLegible rest

def argumentsLegible : List Ast → Prop
  | [] => True
  | arg :: rest => arg.Legible ∧ argumentsLegible rest

end

def Head.names : Head → List String
  | .name s => [s]
  | .this | .literal _ => []

mutual

/-- The names that the paths of a tree start with. -/
def Ast.names : Ast → List String
  | .const _ => []
  | .path head steps => head.names ++ stepsNames steps
  | .unary _ operand => operand.names
  | .binary _ left right => left.names ++ right.names

def Step.names : Step → List String
  | .call _ args => argumentsNames args
  | .field _ | .index _ | .key _ => []

def stepsNames : List Step → List String
  | [] => []
  | step :: rest => step.names ++ stepsNames rest

def argumentsNames : List Ast → List String
  | [] => []
  | arg :: rest => arg.names ++ argumentsNames rest

end

/-- A text of some tokens, if nothing comes after it that runs on. -/
structure Spells (cs : List Char) (ts : List Token) : Prop where
  first : ∀ c ∈ cs.head?, c ≠ '='
  read (rest : List Char) : Breaks rest → tokens (cs ++ rest) = (tokens rest).map (ts ++ ·)

/-- A text of some tokens that does not run on itself. -/
structure Follows (cs : List Char) (ts : List Token) : Prop extends Spells cs ts where
  breaks (rest : List Char) : Breaks rest → Breaks (cs ++ rest)

theorem map_map_append (ts us : List Token) (r : Except SyntaxError (List Token)) :
    (r.map (us ++ ·)).map (ts ++ ·) = r.map (ts ++ us ++ ·) := by
  cases r with
  | error e => rfl
  | ok vs => simp [Except.map]

section Pieces

variable {cs ds : List Char} {ts us : List Token}

theorem follows_nil : Follows [] [] where
  first := nofun
  read rest _ := by
    cases h : tokens rest <;> simp [h, Except.map]
  breaks rest hrest := hrest

theorem Spells.append (h : Spells cs ts) (h' : Follows ds us) : Spells (cs ++ ds) (ts ++ us) where
  first := by
    cases cs with
    | nil => exact h'.first
    | cons c cs => exact h.first
  read rest hrest := by
    rw [List.append_assoc, h.read _ (h'.breaks rest hrest), h'.read rest hrest, map_map_append]

theorem Follows.append (h : Follows cs ts) (h' : Follows ds us) :
    Follows (cs ++ ds) (ts ++ us) where
  toSpells := h.toSpells.append h'
  breaks rest hrest := by
    rw [List.append_assoc]
    exact h.breaks _ (h'.breaks rest hrest)

theorem Spells.head_ne (h : Spells cs ts) {rest : List Char} (hrest : Breaks rest) :
    ∀ c ∈ (cs ++ rest).head?, c ≠ '=' := by
  cases cs with
  | nil => exact hrest.equal
  | cons c cs => exact h.first

theorem Spells.read_symbol (h : Spells cs ts) (p : Punct) {rest : List Char} (hrest : Breaks rest) :
    tokens (p.symbol.toList ++ cs ++ rest) = (tokens rest).map (.punct p :: ts ++ ·) := by
  rw [List.append_assoc, tokens_symbol p (h.head_ne hrest), h.read rest hrest]
  exact map_map_append [.punct p] ts _

theorem Spells.symbol (h : Spells cs ts) {p : Punct} (hp : p ≠ .equal) :
    Spells (p.symbol.toList ++ cs) (.punct p :: ts) where
  first := by
    rintro c hc rfl
    cases p <;> cases hc
    exact hp rfl
  read rest hrest := h.read_symbol p hrest

/-- Punctuation ends what is before it, save that a point might begin a fraction. -/
theorem Spells.follows (h : Spells cs ts) {p : Punct} (hp : p ≠ .equal) (hdot : p ≠ .dot) :
    Follows (p.symbol.toList ++ cs) (.punct p :: ts) where
  toSpells := h.symbol hp
  breaks rest _ := by
    have hfirst : ∀ p : Punct, p ≠ .equal → p ≠ .dot → ∃ c cs, p.symbol.toList = c :: cs ∧
        Text.isNamePart c = false ∧ c ≠ '=' ∧ c ≠ '.' := by
      intro p hp hdot
      cases p <;> first
        | exact ⟨_, _, rfl, by decide, by decide, by decide⟩
        | contradiction
    obtain ⟨c, tail, hc, hpart, hequal, hpoint⟩ := hfirst p hp hdot
    rw [hc]
    exact breaks_cons hpart hequal hpoint _

theorem spells_word {s : String} (hs : IsWord s) : Spells s.toList [.name s] where
  first := by
    obtain ⟨c, cs, hcs, hc, -⟩ := hs
    rw [hcs]
    rintro d hd rfl
    cases hd
    revert hc
    decide
  read rest hrest := tokens_word hrest hs

/-- A name after a point is no fraction. -/
theorem follows_member {s : String} (hs : IsWord s) (h : Follows ds us) :
    Follows (Punct.dot.symbol.toList ++ (s.toList ++ ds)) (.punct .dot :: .name s :: us) where
  toSpells := ((spells_word hs).append h).symbol (by decide)
  breaks rest _ := by
    obtain ⟨c, cs, hcs, hc, -⟩ := hs
    refine ⟨fun d hd => ?_, fun d hd => ?_, fun d tail heq => ?_⟩
    · cases hd
      decide
    · cases hd
      decide
    · rw [hcs] at heq
      cases heq
      exact not_isDigit_of_isNameStart hc

theorem spells_int {n : Int64} (hn : n ≠ Int64.minValue) :
    Spells (intText n).toList (intTokens n) where
  first := by
    have h := intText_ne_equal n []
    rwa [List.append_nil] at h
  read _ hrest := tokens_intText hrest hn

theorem Spells.blank (h : Spells cs ts) : Spells (' ' :: cs) ts where
  first c hc := by
    cases hc
    decide
  read rest hrest := by
    rw [List.cons_append, tokens_of_isBlank (by decide), h.read rest hrest]

/-- An operator between blanks. -/
theorem Spells.operator (h : Spells cs ts) (p : Punct) :
    Follows (' ' :: (p.symbol.toList ++ ' ' :: cs)) (.punct p :: ts) where
  first c hc := by
    cases hc
    decide
  read rest hrest := by
    rw [List.cons_append, tokens_of_isBlank (by decide), h.blank.read_symbol p hrest]
  breaks rest _ := breaks_cons (by decide) (by decide) (by decide) _

end Pieces

theorem isWord_of_reserved {s : String} (h : s ∈ Text.reserved) : IsWord s := by
  simp only [Text.reserved, List.mem_cons, List.not_mem_nil, or_false] at h
  obtain rfl | rfl | rfl | rfl := h <;>
    exact ⟨_, _, rfl, by decide, List.all_eq_true.mp (by decide)⟩

theorem spells_literal {v : Value} (hv : IsLiteral v) :
    Spells (literalText v).toList (literalTokens v) := by
  cases v with
  | int n => exact spells_int hv
  | bool b => cases b <;> exact spells_word (isWord_of_reserved (by decide))
  | null => exact spells_word (isWord_of_reserved (by decide))
  | _ => cases hv

theorem toList_intercalate_cons (text : String) (texts : List String) :
    (", ".intercalate (text :: texts)).toList =
      text.toList ++ texts.flatMap fun t => Punct.comma.symbol.toList ++ ' ' :: t.toList := by
  induction texts generalizing text with
  | nil => simp
  | cons t texts ih =>
    rw [String.intercalate_cons_cons, String.toList_append, String.toList_append, ih,
      List.flatMap_cons]
    simp [Punct.symbol]

section Text

variable {names : Names}

theorem spells_head {head : Head} (h : head.Legible)
    (hs : ∀ x ∈ head.names, (names.slots.lookup? x).isSome) :
    ∃ text, names.text? head = some text ∧ Spells text.toList head.spelled := by
  cases head with
  | name s => exact ⟨s, if_pos (hs s List.mem_cons_self), spells_word h.1⟩
  | this => exact ⟨"this", rfl, spells_word (isWord_of_reserved (by decide))⟩
  | literal v =>
    refine ⟨literalText v, rfl, spells_literal ?_⟩
    cases v with
    | int n =>
      rintro rfl
      have hnonneg : 0 ≤ Int64.minValue.toInt := h
      exact absurd hnonneg (by decide)
    | _ => exact h

mutual

/-- The text of a tree is one of its tokens. -/
theorem Ast.spells {e : Ast} (he : e.Legible)
    (hs : ∀ x ∈ e.names, (names.slots.lookup? x).isSome) :
    Spells (e.text names).toList e.spelled := by
  match e with
  | .const v =>
    rw [Ast.text]
    exact spells_literal he
  | .path head steps =>
    obtain ⟨hhead, -, hsteps⟩ := he
    rw [Ast.names] at hs
    obtain ⟨hslot, hrest⟩ := List.forall_mem_append.mp hs
    obtain ⟨text, htext, hspells⟩ := spells_head hhead hslot
    rw [Ast.text, htext, Ast.spelled]
    simp only [String.toList_append]
    exact hspells.append (follows_steps hsteps hrest)
  | .unary op operand =>
    have h := Ast.spells he.2 hs
    rw [Ast.text, Ast.spelled, String.toList_append, ← op.symbol_punct]
    exact h.symbol (by cases op <;> decide)
  | .binary op left right =>
    rw [Ast.names] at hs
    obtain ⟨hl, hr⟩ := List.forall_mem_append.mp hs
    have hleft := Ast.spells he.1 hl
    have hright := Ast.spells he.2 hr
    have htext : ((Ast.binary op left right).text names).toList = (left.text names).toList ++
        ' ' :: (op.punct.symbol.toList ++ ' ' :: (right.text names).toList) := by
      rw [Ast.text, ← op.symbol_punct]
      simp
    rw [htext, Ast.spelled]
    exact hleft.append (hright.operator op.punct)

theorem Step.follows {step : Step} (h : step.Legible)
    (hs : ∀ x ∈ step.names, (names.slots.lookup? x).isSome) :
    Follows (step.text names).toList step.spelled := by
  match step with
  | .field name =>
    have hfollows := follows_member h follows_nil
    rw [List.append_nil] at hfollows
    rwa [Step.text, Step.spelled, String.toList_append]
  | .index i =>
    have hclose : Follows (Punct.closeBracket.symbol.toList ++ []) [.punct .closeBracket] :=
      follows_nil.follows (by decide) (by decide)
    have hfollows :=
      ((spells_int h).append hclose).follows (p := .openBracket) (by decide) (by decide)
    rw [List.append_nil] at hfollows
    rwa [Step.text, Step.spelled, String.toList_append, String.toList_append, List.append_assoc]
  | .key _ => exact h.elim
  | .call name args =>
    have hclose : Follows (Punct.closeParen.symbol.toList ++ []) [.punct .closeParen] :=
      follows_nil.follows (by decide) (by decide)
    have hargs := (spells_arguments h.2 hs).append hclose
    have hopen := hargs.follows (p := .openParen) (by decide) (by decide)
    have hfollows := follows_member h.1 hopen
    have htext : ((Step.call name args).text names).toList =
        Punct.dot.symbol.toList ++ (name.toList ++ (Punct.openParen.symbol.toList ++
          ((", ".intercalate (argumentTexts names args)).toList ++
            (Punct.closeParen.symbol.toList ++ [])))) := by
      rw [Step.text]
      simp [Punct.symbol]
    rwa [htext, Step.spelled]

theorem follows_steps {steps : List Step} (h : stepsLegible steps)
    (hs : ∀ x ∈ stepsNames steps, (names.slots.lookup? x).isSome) :
    Follows (stepsText names steps).toList (stepsSpelled steps) := by
  match steps with
  | [] => exact follows_nil
  | step :: rest =>
    rw [stepsNames] at hs
    obtain ⟨hstep, hrest⟩ := List.forall_mem_append.mp hs
    rw [stepsText, stepsSpelled, String.toList_append]
    exact (Step.follows h.1 hstep).append (follows_steps h.2 hrest)

theorem spells_arguments {args : List Ast} (h : argumentsLegible args)
    (hs : ∀ x ∈ argumentsNames args, (names.slots.lookup? x).isSome) :
    Spells (", ".intercalate (argumentTexts names args)).toList (argumentsSpelled args) := by
  match args with
  | [] =>
    rw [argumentTexts, String.intercalate_nil]
    exact follows_nil.toSpells
  | arg :: rest =>
    rw [argumentsNames] at hs
    obtain ⟨harg, hrest⟩ := List.forall_mem_append.mp hs
    rw [argumentTexts, toList_intercalate_cons, argumentsSpelled]
    exact (Ast.spells h.1 harg).append (follows_more h.2 hrest)

theorem follows_more {args : List Ast} (h : argumentsLegible args)
    (hs : ∀ x ∈ argumentsNames args, (names.slots.lookup? x).isSome) :
    Follows
      ((argumentTexts names args).flatMap fun t => Punct.comma.symbol.toList ++ ' ' :: t.toList)
      (moreSpelled args) := by
  match args with
  | [] => exact follows_nil
  | arg :: rest =>
    rw [argumentsNames] at hs
    obtain ⟨harg, hrest⟩ := List.forall_mem_append.mp hs
    have hfirst := (Ast.spells h.1 harg).blank.follows (p := .comma) (by decide) (by decide)
    rw [argumentTexts, moreSpelled, List.flatMap_cons]
    exact hfirst.append (follows_more h.2 hrest)

end

end Text

end TemplateEngine.Expr
