import TemplateEngine.Proofs.Calls.Afresh

/-! Contexts of two templates that have the same slots. -/
namespace TemplateEngine

/-- Contexts of two templates in which the slots hold the same. -/
structure Context.Twins (T : Option TriggerId → Option TriggerId → Prop) (t t' : Template)
    (k k' : Context) : Prop where
  left : k.Fits t
  right : k'.Fits t'
  values : k.values = k'.values
  target : k.target = k'.target
  trigger : T k.trigger k'.trigger

namespace Context.Twins

variable {T : Option TriggerId → Option TriggerId → Prop} {t t' : Template} {k k' : Context}

theorem store (h : Twins T t t' k k') (slot : SlotId) (v : Value) :
    Twins T t t' (k.store slot v) (k'.store slot v) where
  left := ⟨h.left.name, h.left.slots, List.length_set.trans h.left.length⟩
  right := ⟨h.right.name, h.right.slots, List.length_set.trans h.right.length⟩
  values := congrArg (·.set slot v) h.values
  target := h.target
  trigger := h.trigger

theorem sameSight (T : Option TriggerId → Option TriggerId → Prop) (t t' : Template) :
    SameSight (Twins T t t') where
  values h := h.values
  target h := h.target
  store slot v h := h.store slot v

theorem set (h : Twins T t t' k k') (hname : t.name = t'.name) (hslots : t.slots = t'.slots)
    (name : String) (v : Value) : Agree (Twins T t t') (k.set name v) (k'.set name v) := by
  unfold Context.set Context.setSlot
  rw [h.left.slots, h.right.slots, hslots, h.values, h.left.name, h.right.name, hname]
  split
  · split
    · exact .ok (h.store _ v)
    · exact .error _
  · exact .error _

theorem forCall (h : Twins T t t' k k') {u u' : Template} (hslots : u.slots = u'.slots) :
    Twins T u u' (k.forCall u) (k'.forCall u') where
  left := ⟨rfl, rfl, List.length_replicate⟩
  right := ⟨rfl, rfl, List.length_replicate⟩
  values := by
    change List.replicate u.slots.size Value.null = List.replicate u'.slots.size Value.null
    rw [hslots]
  target := h.target
  trigger := h.trigger

end Context.Twins

theorem InStep.afresh {T : Option TriggerId → Option TriggerId → Prop}
    {E : List DebugEvent → List DebugEvent → Prop} {σ : Type} {t t' u u' : Template}
    (hslots : u.slots = u'.slots) {body body' : Run σ Unit}
    (h : InStep (Context.Twins T u u') E Eq body body') :
    InStep (Context.Twins T t t') E Eq (Run.afresh u body) (Run.afresh u' body') := by
  intro s s' hs
  obtain ⟨hagree, -, hsink, hevents⟩ :=
    h { s with context := s.context.forCall u } { s' with context := s'.context.forCall u' }
      ⟨hs.context.forCall hslots, hs.sink, hs.events⟩
  exact ⟨hagree, hs.context, hsink, hevents⟩

end TemplateEngine
