import TemplateEngine.Proofs.Nested.Layout
import TemplateEngine.Run.Machine

/-! Carrying out templates by their nested blocks, in which nothing is ever jumped over, and that a
run of the flat programs is the same: the same writes, events, contexts and result. -/
namespace TemplateEngine

def World.Knows (w : World) (u : Template) : Prop :=
  (∃ id, w.catalog.template? id = some u) ∨
    ∃ id r name, w.catalog.registry? id = some r ∧ r.resolve? name = some u

/-- Each value with the one after it. After the last one comes null. -/
def withNext (items : List Value) : List (Value × Value) :=
  items.zip (items.tail ++ [.null])

namespace Frame

variable {σ : Type} [Sink σ] (f : Frame)

def writeNotes (unknown : List String) : Run σ Unit :=
  unknown.forM fun name => Run.emit (unknownNote name)

mutual

/-- Carries out a part of a block. `index` is the place that its first instruction has in the flat
program; debug markers tell it. -/
def runItem (enter : Enter σ) (index : Nat) : Item → Run σ Unit
  | .action a => f.act enter index a
  | .choice c => runChain enter index c
  | .loop header body => do
    (withNext (← f.elements header.container)).forM fun (v, next) => do
      Run.store header.entry v
      Run.store header.next next
      runBlock enter (index + 1) body

def runBlock (enter : Enter σ) (index : Nat) : Block → Run σ Unit
  | .nil => pure ()
  | .cons first rest => do
    runItem enter index first
    runBlock enter (index + first.flatten.length) rest

/-- Takes the first branch whose condition holds. Later conditions are not looked at. -/
def runChain (enter : Enter σ) (index : Nat) : Chain → Run σ Unit
  | .done => pure ()
  | .otherwise body => runBlock enter (index + 1) body
  | .branch unknown cond body more => do
    writeNotes unknown
    if ← f.condition cond then
      runBlock enter (index + unknown.length + 1) body
    else
      runChain enter (index + unknown.length + 1 + body.flatten.length) more

end

omit [Sink σ] in
theorem passes_eq (header : Loop) (body : Run σ Unit) (items : List Value) :
    passes header body items = ((withNext items).forM fun (v, next) => do
      Run.store header.entry v
      Run.store header.next next
      body) := by
  induction items with
  | nil => rfl
  | cons v rest ih =>
    have hpairs : withNext (v :: rest) = (v, rest.head?.getD .null) :: withNext rest := by
      cases rest <;> rfl
    rw [passes, ih, hpairs]
    simp only [List.forM_eq_forM, List.forM_cons, bind_assoc]

theorem walk_noteInstrs (enter : Enter σ) (index : Nat) (unknown : List String)
    (rest : List Instr) :
    f.walk enter index (noteInstrs unknown ++ rest) = (do
      writeNotes unknown
      f.walk enter (index + unknown.length) rest) := by
  induction unknown generalizing index with
  | nil => simp [noteInstrs, notes, writeNotes]
  | cons name unknown ih =>
    have hcons : noteInstrs (name :: unknown) =
        .action (.literal (unknownNote name)) :: noteInstrs unknown := rfl
    rw [hcons, List.cons_append, walk_action, ih, act, writeNotes, writeNotes, List.forM_eq_forM,
      List.forM_cons, bind_assoc, List.length_cons, Nat.add_assoc, Nat.add_comm 1]

section Walk

variable {f} {enter enter' : Enter σ}

mutual

theorem walk_item (hact : ∀ index a, f.act enter index a = f.act enter' index a)
    (index : Nat) (rest : List Instr) (i : Item) :
    f.walk enter index (i.flatten ++ rest) = (do
      f.runItem enter' index i
      f.walk enter (index + i.flatten.length) rest) := by
  match i with
  | .action a =>
    rw [Item.flatten, List.singleton_append, walk_action, hact, runItem, List.length_singleton]
  | .choice c => rw [Item.flatten, walk_chain hact, runItem]
  | .loop header body =>
    have hbody : f.walk enter (index + 1) body.flatten = f.runBlock enter' (index + 1) body := by
      have h := walk_block hact (index + 1) [] body
      simpa only [List.append_nil, walk_nil, bind_pure_unit] using h
    have htake : (body.flatten ++ [Instr.endLoop] ++ rest).take (body.flatten.length + 2 - 2) =
        body.flatten := by
      rw [List.append_assoc, List.take_left' (by omega)]
    have hdrop : (body.flatten ++ [Instr.endLoop] ++ rest).drop (body.flatten.length + 2 - 1) =
        rest :=
      List.drop_left' (by simp)
    rw [Item.flatten, List.cons_append, walk_loop, htake, hdrop, hbody, runItem, bind_assoc]
    simp only [passes_eq]
    simp only [List.length_cons, List.length_append, List.length_nil]

theorem walk_block (hact : ∀ index a, f.act enter index a = f.act enter' index a)
    (index : Nat) (rest : List Instr) (b : Block) :
    f.walk enter index (b.flatten ++ rest) = (do
      f.runBlock enter' index b
      f.walk enter (index + b.flatten.length) rest) := by
  match b with
  | .nil => simp [Block.flatten, runBlock]
  | .cons first more =>
    rw [Block.flatten, List.append_assoc, walk_item hact, runBlock, List.length_append, bind_assoc]
    congr 1
    funext _
    rw [walk_block hact, Nat.add_assoc]

theorem walk_chain (hact : ∀ index a, f.act enter index a = f.act enter' index a)
    (index : Nat) (rest : List Instr) (first : Bool) (c : Chain) :
    f.walk enter index (c.flatten first ++ rest) = (do
      f.runChain enter' index c
      f.walk enter (index + (c.flatten first).length) rest) := by
  match c with
  | .done => simp [Chain.flatten, runChain]
  | .otherwise body =>
    rw [Chain.flatten, List.cons_append, walk_otherwise, walk_block hact, runChain,
      List.length_cons, Nat.add_assoc, Nat.add_comm 1]
  | .branch unknown cond body more =>
    have hbody (at' : Nat) : f.walk enter at' body.flatten = f.runBlock enter' at' body := by
      have h := walk_block hact at' [] body
      simpa only [List.append_nil, walk_nil, bind_pure_unit] using h
    rw [Chain.flatten, List.append_assoc, walk_noteInstrs, runChain, bind_assoc]
    congr 1
    funext _
    rw [List.cons_append, walk_branch, bind_assoc]
    congr 1
    funext holds
    have hlength : index + (noteInstrs unknown ++
          Instr.branch first cond (body.flatten.length + 1)
            (body.flatten.length + 1 + (more.flatten false).length) ::
              (body.flatten ++ more.flatten false)).length =
        index + unknown.length + (body.flatten.length + 1 + (more.flatten false).length) := by
      simp only [List.length_append, List.length_cons, length_noteInstrs]
      omega
    cases holds with
    | true =>
      have hdrop : (body.flatten ++ more.flatten false ++ rest).drop
          (body.flatten.length + 1 + (more.flatten false).length - 1) = rest :=
        List.drop_left' (by simp only [List.length_append]; omega)
      rw [if_pos rfl, if_pos rfl, hdrop, List.append_assoc, List.take_left' (by omega), hbody,
        hlength]
    | false =>
      rw [if_neg (by decide), if_neg (by decide), List.append_assoc, List.drop_left' (by omega),
        walk_chain hact, hlength]
      simp only [Nat.add_assoc, Nat.add_comm]

end

theorem walk_flatten (hact : ∀ index a, f.act enter index a = f.act enter' index a) (b : Block) :
    f.walk enter 0 b.flatten = f.runBlock enter' 0 b := by
  have h := walk_block hact 0 [] b
  simpa only [List.append_nil, walk_nil, bind_pure_unit] using h

end Walk

theorem knows_callee {c : Context} {k : Callee} {u : Template} (h : f.callee c k = .ok u) :
    f.world.Knows u := by
  have hid {id : TemplateId} {e : DataError}
      (h : (f.world.catalog.template? id).elim (.error e) .ok = Except.ok u) :
      f.world.Knows u := by
    cases hu : f.world.catalog.template? id with
    | none => simp [hu] at h
    | some v =>
      simp only [hu, Option.elim_some, Except.ok.injEq] at h
      exact .inl ⟨id, h ▸ hu⟩
  cases k with
  | known t => exact hid h
  | named name =>
    simp only [callee] at h
    split at h
    · cases h
    next r hr =>
      obtain ⟨id, -, hid⟩ := Option.bind_eq_some_iff.mp hr
      cases hu : r.resolve? name with
      | none => simp [hu] at h
      | some v =>
        simp only [hu, Option.elim_some, Except.ok.injEq] at h
        exact .inr ⟨id, r, name, hid, h ▸ hu⟩
  | held slot =>
    simp only [callee] at h
    split at h
    · exact hid h
    · cases h

/-- Only how calls of known templates are made matters. -/
theorem act_congr {enter enter' : Enter σ} (h : ∀ u, f.world.Knows u → enter u = enter' u)
    (index : Nat) (a : Action) : f.act enter index a = f.act enter' index a := by
  cases a with
  | call c =>
    change f.call enter c = f.call enter' c
    unfold call
    congr 1
    funext s
    cases hu : f.callee s.context c.callee with
    | error e => rfl
    | ok u => simp only [h u (f.knows_callee hu)]
  | _ => rfl

end Frame

/-- `b` is the nested form of a source that `t` was compiled from. -/
def Template.IsNested (t : Template) (b : Block) : Prop :=
  ∃ source o d, compile t.name source o = .ok t.toProgram ∧ draft o source = .ok d ∧ d.body = b

theorem Template.IsNested.instrs_eq {t : Template} {b : Block} (h : t.IsNested b) :
    t.instrs = b.flatten := by
  obtain ⟨source, o, d, hcompile, hdraft, rfl⟩ := h
  obtain ⟨d', hdraft', hprogram⟩ := compile_eq_ok_iff.mp hcompile
  obtain rfl : d' = d := Except.ok.inj (hdraft'.symm.trans hdraft)
  rw [hprogram]
  rfl

/-- The nested forms of templates. One that was not compiled from a source has none. -/
abbrev Outline := Template → Option Block

def Outline.Fits (outline : Outline) (w : World) : Prop :=
  ∀ u b, w.Knows u → outline u = some b → u.IsNested b

/-- Carries out a template by its nested form, and so the templates that it calls. -/
def runNestedTemplate {σ : Type} [Sink σ] (w : World) (o : RunOptions) (outline : Outline) :
    (depth : Nat) → (chain : List String) → Template → Block → Run σ Unit
  | 0, chain, t, b =>
    let refuse : Enter σ := fun callee _ _ =>
      throw (.recursionLimit o.maxDepth (chain ++ [callee.name]))
    Frame.runBlock ⟨w, o, t⟩ refuse 0 b
  | depth + 1, chain, t, b =>
    let enter : Enter σ := fun callee site bind =>
      Run.within site callee do
        bind
        match outline callee with
        | some b => runNestedTemplate w o outline depth (chain ++ [callee.name]) callee b
        | none => runTemplate w o depth (chain ++ [callee.name]) callee
    Frame.runBlock ⟨w, o, t⟩ enter 0 b

/-- Runs a template by its nested form in a context that was made for it. -/
def runNested {σ : Type} [Sink σ] (w : World) (o : RunOptions) (outline : Outline) (t : Template)
    (b : Block) (c : Context) (sink : σ) : Outcome σ :=
  .inContext (runNestedTemplate w o outline o.maxDepth [t.name] t b) t c sink

theorem runTemplate_eq_nested {σ : Type} [Sink σ] {w : World} {o : RunOptions} {outline : Outline}
    (hfits : outline.Fits w) (depth : Nat) (chain : List String) {t : Template} {b : Block}
    (h : t.instrs = b.flatten) :
    (runTemplate w o depth chain t : Run σ Unit) =
      runNestedTemplate w o outline depth chain t b := by
  induction depth generalizing chain t b with
  | zero =>
    rw [runTemplate_zero, runNestedTemplate, h]
    exact Frame.walk_flatten (fun _ _ => rfl) b
  | succ depth ih =>
    rw [runTemplate_succ, runNestedTemplate, h]
    apply Frame.walk_flatten
    apply Frame.act_congr
    intro u hu
    funext site bind
    cases hb : outline u with
    | none => rfl
    | some b => rw [ih _ (hfits u b hu hb).instrs_eq]

/-- A compiled program runs as its source reads: whatever the world, the options and the context,
nothing that a run leaves behind differs from what the nested form leaves. -/
theorem run_eq_runNested {name : String} {source : List Char} {o : CompileOptions} {p : Program}
    (h : compile name source o = .ok p) :
    ∃ d, draft o source = .ok d ∧
      ∀ {σ : Type} [Sink σ] (w : World) (ro : RunOptions) (id : TemplateId) (outline : Outline),
        outline.Fits w → ∀ (c : Context) (sink : σ),
          run w ro ⟨p, id⟩ c sink = runNested w ro outline ⟨p, id⟩ d.body c sink := by
  obtain ⟨d, hdraft, hp⟩ := compile_eq_ok_iff.mp h
  refine ⟨d, hdraft, ?_⟩
  intro σ _ w ro id outline hfits c sink
  have hinstrs : p.instrs = d.body.flatten := by rw [hp]; rfl
  rw [run, runNested, runTemplate_eq_nested (t := ⟨p, id⟩) hfits ro.maxDepth _ hinstrs]

/-- A template that goes through a list of lists by calling itself. -/
theorem run_eq_runNested_recursive :
    let source :=
      "<:for:e:xs><:if:e>(<:call:t:xs=e>)<:elsif:other>?<:else>-<.if><:if:e_next>,<.if><.for>".toList
    let o : CompileOptions := { params := ["xs"], registry := some 0, forward := ["t"] }
    ∃ p d, compile "t" source o = .ok p ∧ draft o source = .ok d ∧
      let t : Template := ⟨p, 0⟩
      let w : World :=
        { catalog := { templates := #[t], registries := #[some { entries := [("t", t)] }] } }
      ∀ (c : Context) (sink : TextSink),
        run w {} t c sink = runNested w {} (fun _ => some d.body) t d.body c sink := by
  intro source o
  obtain ⟨p, hp⟩ : ∃ p, compile "t" source o = .ok p := exists_of_isOk (by decide +kernel)
  obtain ⟨d, hd, hrun⟩ := run_eq_runNested hp
  refine ⟨p, d, hp, hd, ?_⟩
  dsimp only
  intro c sink
  apply hrun
  intro u b hu hb
  obtain rfl : u = ⟨p, 0⟩ := by
    obtain ⟨id, hid⟩ | ⟨id, r, name, hr, hname⟩ := hu
    · cases id <;> simp_all [Catalog.template?]
    · cases id with
      | zero =>
        obtain rfl : { entries := [("t", ⟨p, 0⟩)] } = r := by simpa [Catalog.registry?] using hr
        have hmem := Registry.mem_of_resolve? hname
        simp only [List.mem_singleton, Prod.mk.injEq] at hmem
        exact hmem.2
      | succ id => simp [Catalog.registry?] at hr
  obtain rfl : d.body = b := Option.some.inj hb
  exact ⟨source, o, d, (name_of_compile hp).symm ▸ hp, hd, rfl⟩

end TemplateEngine
