import TemplateEngine.Proofs.Listing.Instructions

/-! The lines of a listing. No line is broken by what it shows, so that a listing tells its lines,
and each line tells what it shows. -/
namespace TemplateEngine

open TemplateEngine.Text (NameParts Stops Solid commas)

namespace Text

theorem lines_inj {as bs : List (List Char)} (ha : ∀ line ∈ as, '\n' ∉ line)
    (hb : ∀ line ∈ bs, '\n' ∉ line)
    (h : as.flatMap (· ++ ['\n']) = bs.flatMap (· ++ ['\n'])) : as = bs := by
  have hline {line : List Char} (h : '\n' ∉ line) : ∀ c ∈ line, (c != '\n') = true := by
    intro c hc
    simpa using ne_of_mem_of_not_mem hc h
  have hend (rest : List Char) : ∀ c ∈ ('\n' :: rest).head?, (c != '\n') = false := by simp
  induction as generalizing bs with
  | nil =>
    cases bs with
    | nil => rfl
    | cons b bs => simp at h
  | cons a as ih =>
    cases bs with
    | nil => simp at h
    | cons b bs =>
      obtain ⟨ha, has⟩ := List.forall_mem_cons.mp ha
      obtain ⟨hb, hbs⟩ := List.forall_mem_cons.mp hb
      simp only [List.flatMap_cons, List.append_assoc, List.cons_append, List.nil_append] at h
      obtain ⟨rfl, hrest⟩ := takeWhile_append_inj (hline ha) (hline hb) (hend _) (hend _) h
      rw [ih has hbs (List.cons.inj hrest).2]

/-- Blanks at the end of a line are not shown. -/
theorem Solid.trimEnd_append {cs : List Char} (h : Solid cs) (n : Nat) :
    trimEnd (cs ++ List.replicate n ' ') = cs := by
  rw [trimEnd, List.reverse_append, List.reverse_replicate, List.dropWhile_append_of_pos]
  · exact h.trimEnd_eq
  · intro c hc
    rw [List.eq_of_mem_replicate hc]
    decide

end Text

/-! A line shows the place, the mnemonic in columns and the operands, if there are any. -/

section Row

/-- What a line shows after the place. -/
def row (mnemonic : String) (operands : List Char) : List Char :=
  mnemonic.toList ++ if operands = [] then []
    else List.replicate (8 - mnemonic.length) ' ' ++ ' ' :: operands

theorem row_inj {a b : String} {r s : List Char} (ha : ' ' ∉ a.toList) (hb : ' ' ∉ b.toList)
    (h : row a r = row b s) : a = b ∧ r = s := by
  have hblank {a : String} (ha : ' ' ∉ a.toList) : ∀ c ∈ a.toList, (c != ' ') = true := by
    intro c hc
    simpa using ne_of_mem_of_not_mem hc ha
  have hstop (k : Nat) (r : List Char) : ∀ c ∈ (if r = [] then [] else
      List.replicate k ' ' ++ ' ' :: r).head?, (c != ' ') = false := by
    split
    · simp
    · cases k <;> simp [List.replicate_succ]
  obtain ⟨hab, hrs⟩ := Text.takeWhile_append_inj (hblank ha) (hblank hb) (hstop _ r) (hstop _ s) h
  obtain rfl := String.toList_inj.mp hab
  refine ⟨rfl, ?_⟩
  split at hrs
  · next hr =>
    split at hrs
    · next hs => rw [hr, hs]
    · simp at hrs
  · split at hrs
    · simp at hrs
    · exact (List.cons.inj (List.append_cancel_left hrs)).2

theorem trimEnd_row {before : List Char} (hbefore : '\n' ∉ before) {mnemonic : String}
    (hmnemonic : Solid mnemonic.toList) {operands : List Char}
    (hoperands : operands = [] ∨ Solid operands) :
    Text.trimEnd (before ++ (mnemonic.toList ++
      (List.replicate (8 - mnemonic.length) ' ' ++ ' ' :: operands))) =
      before ++ row mnemonic operands := by
  have hstart : Solid (before ++ mnemonic.toList) := .append hbefore hmnemonic
  obtain rfl | hoperands := hoperands
  · rw [row, if_pos rfl, List.append_nil, ← List.append_assoc, ← List.replicate_succ']
    exact hstart.trimEnd_append _
  · have hne : operands ≠ [] := by
      rintro rfl
      obtain ⟨c, hc, -⟩ := hoperands.last
      cases hc
    have hblanks : '\n' ∉ List.replicate (8 - mnemonic.length) ' ' := by simp
    rw [row, if_neg hne]
    refine (Solid.trimEnd_eq ?_)
    rw [← List.append_assoc]
    exact .append hstart.line (.append hblanks (.append (a := [' ']) (by decide) hoperands))

end Row

namespace InstrForm

def mnemonics : List String :=
  ["literal", "variable", "set", "call", "exec", "debug", "if", "elsif", "else", "for", "endfor"]

theorem shown_mem_mnemonics (name : SlotId → String) (place : Nat) (i : InstrForm) :
    (i.shown name place).1 ∈ mnemonics := by
  cases i with
  | action a => cases a <;> simp [shown, ActionForm.shown, mnemonics]
  | branch first => cases first <;> simp [shown, mnemonics]
  | _ => simp [shown, mnemonics]

theorem solid_mnemonic : ∀ word ∈ mnemonics, ' ' ∉ word.toList ∧ Solid word.toList := by
  intro word hword
  have hshown : ∀ word ∈ mnemonics, ' ' ∉ word.toList ∧ word.toList ≠ [] ∧
      word.toList.all (!Text.isBlank ·) = true := by decide
  obtain ⟨hmem, hne, hall⟩ := hshown word hword
  exact ⟨hmem, Text.solid_of_forall hne fun c hc => by simpa using List.all_eq_true.mp hall c hc⟩

/-- The line of an instruction at a place of a program. -/
def line (name : SlotId → String) (place : Nat) (i : InstrForm) : List Char :=
  (Program.placeText place).toList ++ ' ' :: row (i.shown name place).1 (i.shown name place).2

/-- The lines of a program from a place on. -/
def lines (name : SlotId → String) : (place : Nat) → List InstrForm → List (List Char)
  | _, [] => []
  | place, i :: rest => i.line name place :: lines name (place + 1) rest

theorem length_lines (name : SlotId → String) (place : Nat) (is : List InstrForm) :
    (lines name place is).length = is.length := by
  induction is generalizing place with
  | nil => rfl
  | cons i is ih => rw [lines, List.length_cons, List.length_cons, ih]

section Sound

variable {name name' : SlotId → String}

theorem line_inj {i j : InstrForm} (hi : i.Sound name) (hj : j.Sound name') {place : Nat}
    (h : i.line name place = j.line name' place) : i.told name = j.told name' := by
  have hmnemonic (name : SlotId → String) (i : InstrForm) :=
    (solid_mnemonic _ (i.shown_mem_mnemonics name place)).1
  have hrow := (List.cons.inj (List.append_cancel_left h)).2
  obtain ⟨hfst, hsnd⟩ := row_inj (hmnemonic name i) (hmnemonic name' j) hrow
  exact shown_inj hi hj (Prod.ext hfst hsnd)

theorem lines_inj {is js : List InstrForm} (hi : ∀ i ∈ is, i.Sound name)
    (hj : ∀ j ∈ js, j.Sound name') {place : Nat} (h : lines name place is = lines name' place js) :
    is.map (told name) = js.map (told name') := by
  induction is generalizing js place with
  | nil =>
    cases js with
    | nil => rfl
    | cons j js => cases h
  | cons i is ih =>
    cases js with
    | nil => cases h
    | cons j js =>
      obtain ⟨hi, his⟩ := List.forall_mem_cons.mp hi
      obtain ⟨hj, hjs⟩ := List.forall_mem_cons.mp hj
      obtain ⟨hline, hlines⟩ := List.cons.inj h
      rw [List.map_cons, List.map_cons, line_inj hi hj hline, ih his hjs hlines]

theorem not_mem_line {i : InstrForm} (h : i.Sound name) (place : Nat) :
    '\n' ∉ i.line name place := by
  have hmnemonic := (solid_mnemonic _ (i.shown_mem_mnemonics name place)).2.line
  have hplace := (Program.solid_placeText place).line
  have hoperands : '\n' ∉ (i.shown name place).2 :=
    Text.line_of_eq_nil_or_solid (InstrForm.solid h place)
  rw [line, row]
  split <;> simp [hmnemonic, hplace, hoperands]

theorem not_mem_lines {is : List InstrForm} (h : ∀ i ∈ is, i.Sound name) (place : Nat) :
    ∀ line ∈ lines name place is, '\n' ∉ line := by
  induction is generalizing place with
  | nil => exact List.forall_mem_nil _
  | cons i is ih =>
    obtain ⟨hi, his⟩ := List.forall_mem_cons.mp h
    exact List.forall_mem_cons.mpr ⟨not_mem_line hi place, ih his (place + 1)⟩

end Sound

end InstrForm

namespace Program

/-- What makes the listing of a program faithful. -/
structure Legible (p : Program) : Prop where
  name : NameParts p.name
  params : ∀ param ∈ p.params, Text.isName param.toList
  slots : ∀ i ∈ p.instrs, ∀ s ∈ i.slots, s < p.slots.size
  within : ∀ i ∈ p.instrs, ∀ o ∈ i.operands, o.Within p.slots.size p.arena.size
  grounded : p.arena.Grounded p.slots.size
  sound : ∀ i ∈ p.instrs, (i.form p.arena).Sound p.slots.shownName

def forms (p : Program) : List InstrForm :=
  p.instrs.map (Instr.form p.arena)

def headShown (p : Program) : List Char :=
  ['t', 'e', 'm', 'p', 'l', 'a', 't', 'e', ' '] ++ (p.name.toList ++ ' ' :: '(' ::
    ((toString p.params.length).toList ++ ([' ', 'p', 'a', 'r', 'a', 'm', 's', ':', ' ', '['] ++
      (commas (p.params.map String.toList) ++ ']' :: ',' :: ' ' ::
        ((toString p.slots.size).toList ++ ([' ', 's', 'l', 'o', 't', 's', ',', ' '] ++
          ((toString p.callSites).toList ++
            [' ', 'c', 'a', 'l', 'l', ' ', 's', 'i', 't', 'e', 's', ')'])))))))

def lines (p : Program) : List (List Char) :=
  p.headShown :: InstrForm.lines p.slots.shownName 0 p.forms

theorem toList_headLine (p : Program) : p.headLine.toList = p.headShown ++ ['\n'] := by
  have hparams : (", ".intercalate p.params).toList = commas (p.params.map String.toList) := by
    simpa using Text.toList_commas id p.params
  unfold headLine headShown
  simp [hparams]

section Legible

variable {p : Program} (h : p.Legible)
include h

theorem Legible.nameParts {param : String} (hmem : param ∈ p.params) : NameParts param :=
  fun _ hc => Text.isNamePart_of_isName (h.params param hmem) hc

theorem Legible.toList_instrLine {i : Instr} (hi : i ∈ p.instrs) (place : Nat) :
    (p.instrLine place i).toList =
      (i.form p.arena).line p.slots.shownName place ++ ['\n'] := by
  have htexts := instrTexts_eq h.grounded (h.within i hi) place
  have hmnemonic := (InstrForm.solid_mnemonic _
    ((i.form p.arena).shown_mem_mnemonics p.slots.shownName place)).2
  have hoperands := InstrForm.solid (h.sound i hi) place
  have hplace : '\n' ∉ (placeText place).toList ++ [' '] := by
    simp [(solid_placeText place).line]
  rw [InstrForm.line]
  rw [← htexts] at hmnemonic hoperands ⊢
  unfold instrLine
  generalize p.instrTexts place i = texts at hmnemonic hoperands ⊢
  obtain ⟨mnemonic, operands⟩ := texts
  have hrow := trimEnd_row hplace hmnemonic hoperands
  simp only [Prod.map_apply, id_eq, List.append_assoc, List.cons_append, List.nil_append] at hrow
  simp [hrow]

theorem Legible.toList_instrLines {is : List Instr} (his : ∀ i ∈ is, i ∈ p.instrs) (place : Nat) :
    (p.instrLines place is).flatMap String.toList =
      (InstrForm.lines p.slots.shownName place (is.map (Instr.form p.arena))).flatMap
        (· ++ ['\n']) := by
  induction is generalizing place with
  | nil => rfl
  | cons i is ih =>
    obtain ⟨hi, his⟩ := List.forall_mem_cons.mp his
    rw [instrLines, List.flatMap_cons, h.toList_instrLine hi, ih his, List.map_cons,
      InstrForm.lines, List.flatMap_cons]

theorem Legible.toList_listing : p.listing.toList = p.lines.flatMap (· ++ ['\n']) := by
  rw [listing, String.toList_append, String.toList_join, toList_headLine,
    h.toList_instrLines (fun i hi => hi)]
  rfl

theorem Legible.not_mem_headShown : '\n' ∉ p.headShown := by
  have hparams : '\n' ∉ commas (p.params.map String.toList) := by
    refine Text.line_commas fun text htext => ?_
    obtain ⟨param, hparam, rfl⟩ := List.mem_map.mp htext
    exact (h.nameParts hparam).line
  have hcount (n : Nat) := Text.line_natText n
  simp only [headShown, List.mem_append, List.mem_cons, not_or]
  refine ⟨by decide, h.name.line, by decide, by decide, hcount _, by decide, hparams, by decide,
    by decide, by decide, hcount _, by decide, hcount _, by decide⟩

theorem Legible.not_mem_lines : ∀ line ∈ p.lines, '\n' ∉ line :=
  List.forall_mem_cons.mpr ⟨h.not_mem_headShown,
    InstrForm.not_mem_lines (List.forall_mem_map.mpr h.sound) 0⟩

theorem Legible.headShown_inj {q : Program} (hq : q.Legible) (heq : p.headShown = q.headShown) :
    p.name = q.name ∧ p.params = q.params ∧ p.callSites = q.callSites := by
  have hblank (rest : List Char) : Stops (' ' :: rest) := Text.stops_cons (by decide) rest
  have hcomma (rest : List Char) : Stops (',' :: rest) := Text.stops_cons (by decide) rest
  have hclose (rest : List Char) : Stops (']' :: rest) := Text.stops_cons (by decide) rest
  have hparam {p : Program} (h : p.Legible) (param : String) (hmem : param ∈ p.params)
      (r s : List Char) : param.toList ++ r ≠ ']' :: s := by
    refine (h.nameParts hmem).append_ne (by decide) (fun hnil => ?_) s
    have hname := h.params param hmem
    rw [hnil] at hname
    cases hname
  simp only [headShown, List.cons_append, List.nil_append, List.cons.injEq, true_and] at heq
  obtain ⟨hname, hlength⟩ := Text.name_append_inj (hblank _) (hblank _) h.name hq.name heq
  simp only [List.cons.injEq, true_and] at hlength
  obtain ⟨-, hparams⟩ := Text.natText_append_inj (hblank _) (hblank _) hlength
  simp only [List.cons.injEq, true_and] at hparams
  obtain ⟨hparams, hsize⟩ := Text.commas_append_inj Stops hcomma hclose (by decide)
    (hparam h) (hparam hq)
    (fun a ha b hb r s hr hs => Text.name_append_inj hr hs (h.nameParts ha) (hq.nameParts hb))
    hparams
  simp only [List.cons.injEq, true_and] at hsize
  obtain ⟨-, hsites⟩ := Text.natText_append_inj (hblank _) (hblank _) hsize
  simp only [List.cons.injEq, true_and] at hsites
  obtain ⟨hsites, -⟩ := Text.natText_append_inj (hblank _) (hblank _) hsites
  exact ⟨hname, hparams, hsites⟩

/-- Two programs have one listing only if they have the same head and their instructions, one by
one, tell the same. -/
theorem Legible.listing_inj {q : Program} (hq : q.Legible) (heq : p.listing = q.listing) :
    (p.name = q.name ∧ p.params = q.params ∧ p.callSites = q.callSites) ∧
      p.forms.map (InstrForm.told p.slots.shownName) =
        q.forms.map (InstrForm.told q.slots.shownName) := by
  have hsound {p : Program} (h : p.Legible) : ∀ i ∈ p.forms, i.Sound p.slots.shownName :=
    List.forall_mem_map.mpr h.sound
  have hlines : p.lines = q.lines := by
    refine Text.lines_inj h.not_mem_lines hq.not_mem_lines ?_
    rw [← h.toList_listing, ← hq.toList_listing, heq]
  obtain ⟨hhead, hrest⟩ := List.cons.inj hlines
  exact ⟨h.headShown_inj hq hhead, InstrForm.lines_inj (hsound h) (hsound hq) hrest⟩

end Legible

end Program

end TemplateEngine
