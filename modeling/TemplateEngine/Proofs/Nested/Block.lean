import TemplateEngine.Compile.Tables

/-! The nested form of a program, and how it is laid out flat. -/
namespace TemplateEngine

mutual

inductive Item where
  | action (a : Action)
  | choice (c : Chain)
  | loop (header : Loop) (body : Block)

inductive Block where
  | nil
  | cons (first : Item) (rest : Block)

/-- The branches of an `if`, from the current one on. The names that are unknown in the condition of
a branch are noted when the condition is reached. -/
inductive Chain where
  | done
  | otherwise (body : Block)
  | branch (unknown : List String) (cond : Operand) (body : Block) (more : Chain)

end

/-- The block of the items of a list, which is in reverse order. -/
def Block.ofReverse (items : List Item) : Block :=
  items.foldl (fun b i => .cons i b) .nil

def noteInstrs (unknown : List String) : List Instr :=
  (notes unknown).map .action

@[simp] theorem length_noteInstrs (unknown : List String) :
    (noteInstrs unknown).length = unknown.length := by
  simp [noteInstrs, notes]

mutual

def Item.flatten : Item → List Instr
  | .action a => [.action a]
  | .choice c => c.flatten true
  | .loop header body =>
    let body := body.flatten
    .loop header (body.length + 2) :: (body ++ [.endLoop])

def Block.flatten : Block → List Instr
  | .nil => []
  | .cons first rest => first.flatten ++ rest.flatten

/-- Each branch jumps over its own body to the notes of the next one, and from the end of its body
over all the rest of the chain. -/
def Chain.flatten (first : Bool) : Chain → List Instr
  | .done => []
  | .otherwise body => .otherwise :: body.flatten
  | .branch unknown cond body more =>
    let body := body.flatten
    let rest := more.flatten false
    noteInstrs unknown ++
      .branch first cond (body.length + 1) (body.length + 1 + rest.length) :: (body ++ rest)

end

private theorem flatten_foldl_cons (items : List Item) (after : Block) :
    (items.foldl (fun b i => Block.cons i b) after).flatten =
      items.reverse.flatMap Item.flatten ++ after.flatten := by
  induction items generalizing after with
  | nil => rfl
  | cons i items ih =>
    rw [List.foldl_cons, ih, Block.flatten, List.reverse_cons, List.flatMap_append]
    simp only [List.flatMap_cons, List.flatMap_nil, List.append_nil, List.append_assoc]

theorem Block.flatten_ofReverse (items : List Item) :
    (Block.ofReverse items).flatten = items.reverse.flatMap Item.flatten := by
  rw [Block.ofReverse, flatten_foldl_cons, Block.flatten, List.append_nil]

end TemplateEngine
