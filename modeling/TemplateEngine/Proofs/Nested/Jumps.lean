import TemplateEngine.Proofs.Nested.Places

/-! The jumps of a compiled program. They only lead forward, they never leave the block that their
header stands in, and the blocks lie one inside the other or apart. -/
namespace TemplateEngine

/-- What stands at a place that a branch of a chain leads to when its condition does not hold; the
whole chain ends at `stop`. -/
inductive ChainRest (is : List Instr) (stop : Nat) : Nat → Prop
  | done : ChainRest is stop stop
  | otherwise {place : Nat} : place < stop → is[place]? = some .otherwise →
      ChainRest is stop place
  | branch {start place next n : Nat} {unknown : List String} {cond : Operand} :
      CodeAt is start (noteInstrs unknown) → start + unknown.length = place →
      is[place]? = some (.branch false cond next n) → place + n = stop →
      ChainRest is stop (place + next) → ChainRest is stop start

/-- How far the closing instruction is of a loop whose body follows, when `depth` loops in between
are open. -/
def closer? (depth : Nat) : List Instr → Option Nat
  | [] => none
  | .endLoop :: rest =>
    match depth with
    | 0 => some 0
    | depth + 1 => (closer? depth rest).map (· + 1)
  | .loop .. :: rest => (closer? (depth + 1) rest).map (· + 1)
  | .action _ :: rest | .branch .. :: rest | .otherwise :: rest =>
    (closer? depth rest).map (· + 1)

/-- There is a header at `place`. Its body ends at `bodyStop`, and all that it heads at `stop`. -/
inductive HeaderAt (is : List Instr) (place : Nat) : (bodyStop stop : Nat) → Prop
  | branch {first : Bool} {cond : Operand} {next n : Nat} :
      is[place]? = some (.branch first cond next n) → HeaderAt is place (place + next) (place + n)
  | loop {header : Loop} {n : Nat} :
      is[place]? = some (.loop header n) → HeaderAt is place (place + n - 1) (place + n)

/-- The jumps of a program are such that it can be run without looking for the end of a block. -/
structure WellJumped (is : List Instr) : Prop where
  branch {place next n : Nat} {first : Bool} {cond : Operand} :
    is[place]? = some (.branch first cond next n) →
      1 ≤ next ∧ next ≤ n ∧ place + n ≤ is.length ∧ ChainRest is (place + n) (place + next)
  loop {place n : Nat} {header : Loop} :
    is[place]? = some (.loop header n) →
      2 ≤ n ∧ place + n ≤ is.length ∧ is[place + n - 1]? = some .endLoop ∧
      closer? 0 (is.drop (place + 1)) = some (n - 2)
  nested {place bodyStop stop place' bodyStop' stop' : Nat} :
    HeaderAt is place bodyStop stop → HeaderAt is place' bodyStop' stop' →
      bodyStop ≤ place' + 1 ∨ bodyStop' ≤ place + 1 ∨
      (place ≤ place' ∧ bodyStop' ≤ bodyStop) ∨ (place' ≤ place ∧ bodyStop ≤ bodyStop')

/-- The same for the part of a program from `start` up to `stop`. No jump leads out of it, and a
header inside a body has all that it heads in there too. -/
structure JumpsWithin (is : List Instr) (start stop : Nat) : Prop where
  le : start ≤ stop
  header {place bodyStop stop' : Nat} : start ≤ place → place < stop →
    HeaderAt is place bodyStop stop' → place < bodyStop ∧ bodyStop ≤ stop' ∧ stop' ≤ stop
  chain {place next n : Nat} {first : Bool} {cond : Operand} : start ≤ place → place < stop →
    is[place]? = some (.branch first cond next n) → ChainRest is (place + n) (place + next)
  own {place n : Nat} {header : Loop} : start ≤ place → place < stop →
    is[place]? = some (.loop header n) →
      is[place + n - 1]? = some .endLoop ∧ closer? 0 (is.drop (place + 1)) = some (n - 2)
  inside {place bodyStop stop' place' bodyStop' stop'' : Nat} : start ≤ place → place < stop →
    HeaderAt is place bodyStop stop' → place < place' → place' < bodyStop →
    HeaderAt is place' bodyStop' stop'' → stop'' ≤ bodyStop

theorem HeaderAt.unique {is : List Instr} {place bodyStop stop bodyStop' stop' : Nat}
    (h : HeaderAt is place bodyStop stop) (h' : HeaderAt is place bodyStop' stop') :
    bodyStop = bodyStop' ∧ stop = stop' := by
  cases h with
  | branch h =>
    cases h' with
    | branch h' => rw [h] at h'; cases h'; exact ⟨rfl, rfl⟩
    | loop h' => rw [h] at h'; cases h'
  | loop h =>
    cases h' with
    | branch h' => rw [h] at h'; cases h'
    | loop h' => rw [h] at h'; cases h'; exact ⟨rfl, rfl⟩

def Instr.IsPlain : Instr → Prop
  | .branch .. | .loop .. => False
  | .action _ | .otherwise | .endLoop => True

theorem Instr.IsPlain.not_headerAt {is : List Instr} {i : Instr} {place : Nat} (hplain : i.IsPlain)
    (h : is[place]? = some i) {bodyStop stop : Nat} : ¬HeaderAt is place bodyStop stop := by
  intro hheader
  cases hheader with
  | branch h' => rw [h] at h'; cases h'; exact hplain
  | loop h' => rw [h] at h'; cases h'; exact hplain

namespace JumpsWithin

variable {is : List Instr} {start middle stop : Nat}

theorem empty (is : List Instr) (place : Nat) : JumpsWithin is place place where
  le := Nat.le_refl place
  header h h' := absurd h (Nat.not_le_of_lt h')
  chain h h' := absurd h (Nat.not_le_of_lt h')
  own h h' := absurd h (Nat.not_le_of_lt h')
  inside h h' := absurd h (Nat.not_le_of_lt h')

theorem append (h : JumpsWithin is start middle) (h' : JumpsWithin is middle stop) :
    JumpsWithin is start stop where
  le := Nat.le_trans h.le h'.le
  header {place bodyStop stop'} hstart hstop hheader := by
    by_cases hmiddle : place < middle
    · obtain ⟨hbody, hbody', hle⟩ := h.header hstart hmiddle hheader
      exact ⟨hbody, hbody', Nat.le_trans hle h'.le⟩
    · exact h'.header (by omega) hstop hheader
  chain {place next n first cond} hstart hstop hbranch := by
    by_cases hmiddle : place < middle
    · exact h.chain hstart hmiddle hbranch
    · exact h'.chain (by omega) hstop hbranch
  own {place n header} hstart hstop hloop := by
    by_cases hmiddle : place < middle
    · exact h.own hstart hmiddle hloop
    · exact h'.own (by omega) hstop hloop
  inside {place bodyStop stop' place' bodyStop' stop''} hstart hstop hheader := by
    by_cases hmiddle : place < middle
    · exact h.inside hstart hmiddle hheader
    · exact h'.inside (by omega) hstop hheader

theorem plain {i : Instr} (h : is[start]? = some i) (hplain : i.IsPlain) :
    JumpsWithin is start (start + 1) := by
  have hnone {place bodyStop stop : Nat} (hstart : start ≤ place) (hstop : place < start + 1) :
      ¬HeaderAt is place bodyStop stop := by
    obtain rfl : place = start := by omega
    exact hplain.not_headerAt h
  exact {
    le := Nat.le_succ start
    header := fun hstart hstop hheader => absurd hheader (hnone hstart hstop)
    chain := fun hstart hstop hbranch => absurd (.branch hbranch) (hnone hstart hstop)
    own := fun hstart hstop hloop => absurd (.loop hloop) (hnone hstart hstop)
    inside := fun hstart hstop hheader => absurd hheader (hnone hstart hstop) }

theorem headed {place bodyStop : Nat} (hheader : HeaderAt is place bodyStop stop)
    (hbody : JumpsWithin is (place + 1) bodyStop) (hrest : JumpsWithin is bodyStop stop)
    (hchain : ∀ {first cond next n}, is[place]? = some (.branch first cond next n) →
      ChainRest is (place + n) (place + next))
    (hown : ∀ {header n}, is[place]? = some (.loop header n) →
      is[place + n - 1]? = some .endLoop ∧ closer? 0 (is.drop (place + 1)) = some (n - 2)) :
    JumpsWithin is place stop := by
  have hbodyLe := hbody.le
  have hrestLe := hrest.le
  have hafter := hbody.append hrest
  constructor
  case le => omega
  case header =>
    intro place' bodyStop' stop' hstart hstop hheader'
    by_cases heq : place' = place
    · subst heq
      obtain ⟨rfl, rfl⟩ := hheader.unique hheader'
      exact ⟨by omega, hrestLe, Nat.le_refl _⟩
    · exact hafter.header (by omega) hstop hheader'
  case chain =>
    intro place' next n first cond hstart hstop hbranch
    by_cases heq : place' = place
    · subst heq
      exact hchain hbranch
    · exact hafter.chain (by omega) hstop hbranch
  case own =>
    intro place' n header hstart hstop hloop
    by_cases heq : place' = place
    · subst heq
      exact hown hloop
    · exact hafter.own (by omega) hstop hloop
  case inside =>
    intro place' bodyStop' stop' inner _ _ hstart hstop hheader' hlt hlt' hinner
    by_cases heq : place' = place
    · subst heq
      obtain ⟨rfl, rfl⟩ := hheader.unique hheader'
      exact (hbody.header hlt hlt' hinner).2.2
    · exact hafter.inside (by omega) hstop hheader' hlt hlt' hinner

end JumpsWithin

/-- Every loop that is opened between two places is closed between them. -/
def Balanced (is : List Instr) (start stop : Nat) : Prop :=
  start ≤ stop ∧
    ∀ depth, closer? depth (is.drop start) = (closer? depth (is.drop stop)).map (· + (stop - start))

private theorem drop_of_getElem? {is : List Instr} {place : Nat} {i : Instr}
    (h : is[place]? = some i) : is.drop place = i :: is.drop (place + 1) := by
  obtain ⟨hlt, rfl⟩ := List.getElem?_eq_some_iff.mp h
  exact List.drop_eq_getElem_cons hlt

namespace Balanced

variable {is : List Instr} {start middle stop : Nat}

theorem empty (is : List Instr) (place : Nat) : Balanced is place place := by
  refine ⟨Nat.le_refl place, fun depth => ?_⟩
  rw [Nat.sub_self]
  simp only [Nat.add_zero, Option.map_id']

theorem append (h : Balanced is start middle) (h' : Balanced is middle stop) :
    Balanced is start stop := by
  refine ⟨Nat.le_trans h.1 h'.1, fun depth => ?_⟩
  have hle := h.1
  have hle' := h'.1
  have hlength : stop - middle + (middle - start) = stop - start := by omega
  rw [h.2, h'.2, Option.map_map]
  congr 1
  funext n
  simp only [Function.comp_apply, Nat.add_assoc, hlength]

theorem step {i : Instr} (h : is[start]? = some i)
    (hstep : ∀ depth rest, closer? depth (i :: rest) = (closer? depth rest).map (· + 1)) :
    Balanced is start (start + 1) := by
  refine ⟨Nat.le_succ start, fun depth => ?_⟩
  rw [drop_of_getElem? h, hstep, Nat.add_sub_cancel_left]

theorem closer?_eq (h : Balanced is start stop) (hclose : is[stop]? = some .endLoop) :
    closer? 0 (is.drop start) = some (stop - start) := by
  rw [h.2, drop_of_getElem? hclose, closer?]
  simp only [Option.map_some, Nat.zero_add]

theorem loop {header : Loop} {n : Nat} (h : is[start]? = some (.loop header n))
    (hbody : Balanced is (start + 1) stop) (hclose : is[stop]? = some .endLoop) :
    Balanced is start (stop + 1) := by
  have hle := hbody.1
  refine ⟨by omega, fun depth => ?_⟩
  rw [drop_of_getElem? h, closer?, hbody.2, drop_of_getElem? hclose, closer?, Option.map_map,
    Option.map_map]
  congr 1
  funext n
  simp only [Function.comp_apply]
  omega

end Balanced

theorem balanced_notes {is : List Instr} {start : Nat} (unknown : List String)
    (h : CodeAt is start (noteInstrs unknown)) : Balanced is start (start + unknown.length) := by
  induction unknown generalizing start with
  | nil => exact .empty is start
  | cons name unknown ih =>
    have hrest := ih h.tail
    rw [Nat.add_assoc, Nat.add_comm 1] at hrest
    exact (Balanced.step h.head fun _ _ => rfl).append hrest

mutual

theorem Item.LaidOut.balanced {is : List Instr} {start stop : Nat} {i : Item}
    (h : i.LaidOut is start stop) : Balanced is start stop := by
  match i, h with
  | .action a, ⟨hinstr, hstop⟩ =>
    subst hstop
    exact .step hinstr fun _ _ => rfl
  | .choice c, h => exact Chain.LaidOut.balanced (c := c) h
  | .loop header body, ⟨n, close, hloop, _, hbody, hclose, hstop⟩ =>
    subst hstop
    exact .loop hloop hbody.balanced hclose

theorem Block.LaidOut.balanced {is : List Instr} {start stop : Nat} {b : Block}
    (h : b.LaidOut is start stop) : Balanced is start stop := by
  match b, h with
  | .nil, hstop =>
    subst hstop
    exact .empty is start
  | .cons first rest, ⟨middle, hfirst, hrest⟩ => exact hfirst.balanced.append hrest.balanced

theorem Chain.LaidOut.balanced {is : List Instr} {first : Bool} {start stop : Nat} {c : Chain}
    (h : c.LaidOut is first start stop) : Balanced is start stop := by
  match c, h with
  | .done, hstop =>
    subst hstop
    exact .empty is start
  | .otherwise body, ⟨hinstr, hbody⟩ =>
    exact (Balanced.step hinstr fun _ _ => rfl).append hbody.balanced
  | .branch unknown cond body more, ⟨place, next, n, hnotes, hplace, hbranch, _, hbody, hmore⟩ =>
    subst hplace
    have hheader := Balanced.step hbranch fun _ _ => rfl
    exact (((balanced_notes unknown hnotes).append hheader).append hbody.balanced).append
      hmore.balanced

end

theorem Chain.LaidOut.chainRest {is : List Instr} {start stop : Nat} {c : Chain}
    (h : c.LaidOut is false start stop) : ChainRest is stop start := by
  match c, h with
  | .done, hstop =>
    subst hstop
    exact .done
  | .otherwise body, ⟨hinstr, hbody⟩ => exact .otherwise hbody.balanced.1 hinstr
  | .branch unknown cond body more, ⟨place, next, n, hnotes, hplace, hbranch, hstop, _, hmore⟩ =>
    exact .branch hnotes hplace hbranch hstop hmore.chainRest

theorem jumpsWithin_notes {is : List Instr} {start : Nat} (unknown : List String)
    (h : CodeAt is start (noteInstrs unknown)) :
    JumpsWithin is start (start + unknown.length) := by
  induction unknown generalizing start with
  | nil => exact .empty is start
  | cons name unknown ih =>
    have hrest := ih h.tail
    rw [Nat.add_assoc, Nat.add_comm 1] at hrest
    exact (JumpsWithin.plain h.head trivial).append hrest

mutual

theorem Item.LaidOut.jumpsWithin {is : List Instr} {start stop : Nat} {i : Item}
    (h : i.LaidOut is start stop) : JumpsWithin is start stop := by
  match i, h with
  | .action a, ⟨hinstr, hstop⟩ =>
    subst hstop
    exact .plain hinstr trivial
  | .choice c, h => exact Chain.LaidOut.jumpsWithin (c := c) h
  | .loop header body, ⟨n, close, hloop, hn, hbody, hclose, hstop⟩ =>
    have hle := hbody.balanced.1
    have hclosePlace : start + n - 1 = close := by omega
    refine .headed (hn ▸ .loop hloop) (hclosePlace ▸ hbody.jumpsWithin) ?_ ?_ ?_
    · rw [hclosePlace, ← hstop]
      exact .plain hclose trivial
    · intro first cond next n' hbranch
      rw [hloop] at hbranch
      cases hbranch
    · intro header' n' hloop'
      rw [hloop] at hloop'
      cases hloop'
      refine ⟨hclosePlace ▸ hclose, ?_⟩
      rw [hbody.balanced.closer?_eq hclose]
      congr 1
      omega

theorem Block.LaidOut.jumpsWithin {is : List Instr} {start stop : Nat} {b : Block}
    (h : b.LaidOut is start stop) : JumpsWithin is start stop := by
  match b, h with
  | .nil, hstop =>
    subst hstop
    exact .empty is start
  | .cons first rest, ⟨middle, hfirst, hrest⟩ => exact hfirst.jumpsWithin.append hrest.jumpsWithin

theorem Chain.LaidOut.jumpsWithin {is : List Instr} {first : Bool} {start stop : Nat} {c : Chain}
    (h : c.LaidOut is first start stop) : JumpsWithin is start stop := by
  match c, h with
  | .done, hstop =>
    subst hstop
    exact .empty is start
  | .otherwise body, ⟨hinstr, hbody⟩ =>
    exact (JumpsWithin.plain hinstr trivial).append hbody.jumpsWithin
  | .branch unknown cond body more, ⟨place, next, n, hnotes, hplace, hbranch, hn, hbody, hmore⟩ =>
    subst hplace
    refine (jumpsWithin_notes unknown hnotes).append
      (.headed (hn ▸ .branch hbranch) hbody.jumpsWithin hmore.jumpsWithin ?_ ?_)
    · intro first' cond' next' n' hbranch'
      rw [hbranch] at hbranch'
      cases hbranch'
      rw [hn]
      exact hmore.chainRest
    · intro header n' hloop
      rw [hbranch] at hloop
      cases hloop

end

theorem JumpsWithin.wellJumped {is : List Instr} (h : JumpsWithin is 0 is.length) :
    WellJumped is := by
  have hplace {place bodyStop stop : Nat} (hheader : HeaderAt is place bodyStop stop) :
      place < is.length := by
    cases hheader with
    | branch h => exact (List.getElem?_eq_some_iff.mp h).1
    | loop h => exact (List.getElem?_eq_some_iff.mp h).1
  -- Of two headers the first one decides: the other one is in its body, or after it.
  have hordered {place bodyStop stop place' bodyStop' stop' : Nat}
      (hheader : HeaderAt is place bodyStop stop) (hheader' : HeaderAt is place' bodyStop' stop')
      (hlt : place < place') : bodyStop ≤ place' + 1 ∨ bodyStop' ≤ bodyStop := by
    by_cases hin : place' < bodyStop
    · have hinside := h.inside (Nat.zero_le _) (hplace hheader) hheader hlt hin hheader'
      have hbody := h.header (Nat.zero_le _) (hplace hheader') hheader'
      omega
    · omega
  constructor
  case branch =>
    intro place first cond next stop hbranch
    have hlt := hplace (.branch hbranch)
    have hheader := h.header (Nat.zero_le _) hlt (.branch hbranch)
    exact ⟨by omega, by omega, hheader.2.2, h.chain (Nat.zero_le _) hlt hbranch⟩
  case loop =>
    intro place header stop hloop
    have hlt := hplace (.loop hloop)
    have hheader := h.header (Nat.zero_le _) hlt (.loop hloop)
    exact ⟨by omega, hheader.2.2, h.own (Nat.zero_le _) hlt hloop⟩
  case nested =>
    intro place bodyStop stop place' bodyStop' stop' hheader hheader'
    obtain hlt | heq | hgt := Nat.lt_trichotomy place place'
    · have hcases := hordered hheader hheader' hlt
      omega
    · subst heq
      obtain ⟨rfl, rfl⟩ := hheader.unique hheader'
      omega
    · have hcases := hordered hheader' hheader hgt
      omega

/-- What the compiler lays out has its jumps in order, and each of them leads where the nested form
of the source says. -/
theorem wellJumped_of_compile {name : String} {source : List Char} {o : CompileOptions}
    {p : Program} (h : compile name source o = .ok p) :
    ∃ d, draft o source = .ok d ∧ d.body.LaidOut p.instrs 0 p.instrs.length ∧
      WellJumped p.instrs := by
  obtain ⟨d, hdraft, hp⟩ := compile_eq_ok_iff.mp h
  have hinstrs : p.instrs = d.body.flatten := by rw [hp]; rfl
  have hlaid : d.body.LaidOut p.instrs 0 p.instrs.length := by
    rw [hinstrs]
    exact d.body.laidOut_of_codeAt (.self _) (Nat.zero_add _)
  exact ⟨d, hdraft, hlaid, hlaid.jumpsWithin.wellJumped⟩

/-- A chain with an unknown name in its second condition, inside a loop inside a branch. -/
theorem wellJumped_of_compile_nested :
    let source :=
      "<:if:x><:for:e:x><:if:e>a<:elsif:y + z>b<:else>c<.if>,<.for><.if>".toList
    let o : CompileOptions := { params := ["x"] }
    ∃ p d, compile "t" source o = .ok p ∧ draft o source = .ok d ∧
      d.body.LaidOut p.instrs 0 p.instrs.length ∧ WellJumped p.instrs := by
  intro source o
  obtain ⟨p, hp⟩ : ∃ p, compile "t" source o = .ok p := exists_of_isOk (by decide +kernel)
  obtain ⟨d, hd, hlaid, hjumps⟩ := wellJumped_of_compile hp
  exact ⟨p, d, hp, hd, hlaid, hjumps⟩

end TemplateEngine
