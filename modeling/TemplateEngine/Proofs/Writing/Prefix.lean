import TemplateEngine.Proofs.Writing.Offers
import TemplateEngine.Sink.Bytes
import TemplateEngine.Compile.Basic

/-! A sink that takes only so much sees exactly the beginning of what a run writes, and nothing
after that. In how many parts a value is written does not depend on the sink. -/
namespace TemplateEngine

section Bounded

variable {τ α : Type} [Sink τ]

/-- While `room n` holds of it, a sink takes `n` more of the units that texts consist of; `written`
is what it has taken, and `full` holds after it has refused a text. -/
structure Sink.Bounded (units : String → List α) (written : τ → List α) (room : Nat → τ → Prop)
    (full : τ → Prop) : Prop where
  units_empty : units "" = []
  units_append (text text' : String) : units (text ++ text') = units text ++ units text'
  fits {n : Nat} {sink : τ} {text : String} : room n sink → (units text).length ≤ n →
    (Sink.write sink text).2 = true ∧
      written (Sink.write sink text).1 = written sink ++ units text ∧
      room (n - (units text).length) (Sink.write sink text).1
  exceeds {n : Nat} {sink : τ} {text : String} : room n sink → n < (units text).length →
    (Sink.write sink text).2 = false ∧
      written (Sink.write sink text).1 = written sink ++ (units text).take n ∧
      full (Sink.write sink text).1

variable {units : String → List α} {written : τ → List α} {room : Nat → τ → Prop} {full : τ → Prop}

theorem Sink.offer_cons (sink : τ) (text : String) (rest : List String) :
    Sink.offer sink (text :: rest) =
      if (Sink.write sink text).2 then Sink.offer (Sink.write sink text).1 rest
      else ((Sink.write sink text).1, false) := by
  rw [Sink.offer]
  generalize Sink.write sink text = r
  obtain ⟨sink', taken⟩ := r
  cases taken <;> rfl

theorem Sink.Bounded.offer_fits (h : Sink.Bounded units written room full) {n : Nat} {sink : τ}
    (hroom : room n sink) {texts : List String} (hlength : (units (String.join texts)).length ≤ n) :
    (Sink.offer sink texts).2 = true ∧
      written (Sink.offer sink texts).1 = written sink ++ units (String.join texts) ∧
      room (n - (units (String.join texts)).length) (Sink.offer sink texts).1 := by
  induction texts generalizing n sink with
  | nil =>
    rw [String.join_nil, h.units_empty]
    exact ⟨rfl, (List.append_nil _).symm, hroom⟩
  | cons text rest ih =>
    rw [String.join_cons, h.units_append, List.length_append] at hlength
    rw [String.join_cons, h.units_append, List.length_append]
    have hfits : (units text).length ≤ n := by omega
    obtain ⟨htaken, hwritten, hroom'⟩ := h.fits hroom hfits
    obtain ⟨hrest, hwritten', hroom''⟩ := ih hroom' (by omega)
    rw [Sink.offer_cons, htaken, if_pos rfl]
    refine ⟨hrest, ?_, ?_⟩
    · rw [hwritten', hwritten, List.append_assoc]
    · rwa [Nat.sub_sub] at hroom''

theorem Sink.Bounded.offer_over (h : Sink.Bounded units written room full) {n : Nat} {sink : τ}
    (hroom : room n sink) {texts : List String} (hlength : n < (units (String.join texts)).length) :
    (Sink.offer sink texts).2 = false ∧
      written (Sink.offer sink texts).1 = written sink ++ (units (String.join texts)).take n ∧
      full (Sink.offer sink texts).1 := by
  induction texts generalizing n sink with
  | nil =>
    rw [String.join_nil, h.units_empty] at hlength
    exact absurd hlength (Nat.not_lt_zero n)
  | cons text rest ih =>
    rw [String.join_cons, h.units_append, List.length_append] at hlength
    rw [String.join_cons, h.units_append, Sink.offer_cons]
    by_cases hfits : (units text).length ≤ n
    · obtain ⟨htaken, hwritten, hroom'⟩ := h.fits hroom hfits
      obtain ⟨hrest, hwritten', hfull⟩ := ih hroom' (by omega)
      rw [htaken, if_pos rfl]
      refine ⟨hrest, ?_, hfull⟩
      rw [hwritten', hwritten, List.append_assoc, List.take_append, List.take_of_length_le hfits]
    · obtain ⟨hrefused, hwritten, hfull⟩ := h.exceeds hroom (Nat.lt_of_not_le hfits)
      rw [hrefused, if_neg Bool.false_ne_true]
      refine ⟨rfl, ?_, hfull⟩
      rw [hwritten, List.take_append_of_le_length (by omega)]

end Bounded

namespace TextSink

theorem offer_unbounded (text : String) (texts : List String) :
    Sink.offer ({ text } : TextSink) texts = ({ text := text ++ String.join texts }, true) := by
  induction texts generalizing text with
  | nil => simp [Sink.offer]
  | cons first rest ih =>
    have hwrite : Sink.write ({ text } : TextSink) first = ({ text := text ++ first }, true) := rfl
    rw [Sink.offer_cons, hwrite, if_pos rfl, ih, String.join_cons, String.append_assoc]

/-- With room for so many characters. -/
theorem bounded :
    Sink.Bounded String.toList (fun s : TextSink => s.text.toList) (fun n s => s.room = some n)
      (fun _ => True) where
  units_empty := rfl
  units_append _ _ := String.toList_append
  fits {n sink text} hroom hlength := by
    rw [String.length_toList] at hlength ⊢
    have hwrite : Sink.write sink text =
        ({ text := sink.text ++ text, room := some (n - text.length) }, true) := by
      change sink.write text = _
      simp only [write, hroom, if_pos hlength]
    rw [hwrite]
    exact ⟨rfl, String.toList_append, rfl⟩
  exceeds {n sink text} hroom hlength := by
    rw [String.length_toList] at hlength
    have hwrite : Sink.write sink text =
        ({ text := sink.text ++ String.ofList (text.toList.take n), room := some 0 }, false) := by
      change sink.write text = _
      simp only [write, hroom, if_neg (Nat.not_le.mpr hlength)]
    rw [hwrite]
    exact ⟨rfl, by rw [String.toList_append, String.toList_ofList], trivial⟩

end TextSink

section Bytes

variable {ω : Type} [Writer ω] {taken : ω → List UInt8} {failure : WriteError} {n : Nat}
  {writer : ω}

/-- What a writer answers to a write and is afterwards, if it takes `n` more bytes and then fails.
Meanwhile it may be interrupted, and then takes nothing. -/
inductive Writer.Answers (taken : ω → List UInt8) (failure : WriteError) (n : Nat) (writer : ω)
    (bytes : List UInt8) : ω × Except WriteError Nat → Prop where
  | took {writer' : ω} {k : Nat} : 0 < k → k ≤ n → k ≤ bytes.length →
    taken writer' = taken writer ++ bytes.take k →
    Answers taken failure n writer bytes (writer', .ok k)
  | failed {writer' : ω} : n = 0 → failure.kind ≠ .interrupted → taken writer' = taken writer →
    Answers taken failure n writer bytes (writer', .error failure)
  | interrupted {writer' : ω} {e : WriteError} : e.kind = .interrupted →
    taken writer' = taken writer → Answers taken failure n writer bytes (writer', .error e)

/-- A writer that takes `n` more bytes, in parts of any size and with any interruptions, and then
fails. -/
inductive Writer.Closing (taken : ω → List UInt8) (failure : WriteError) : Nat → ω → Prop where
  | intro {n : Nat} {writer : ω} :
    (∀ bytes, bytes ≠ [] → Answers taken failure n writer bytes (write writer bytes)) →
    (∀ bytes writer' k, bytes ≠ [] → write writer bytes = (writer', .ok k) →
      Closing taken failure (n - k) writer') →
    (∀ bytes writer' e, bytes ≠ [] → write writer bytes = (writer', .error e) →
      e.kind = .interrupted → Closing taken failure n writer') →
    Closing taken failure n writer

theorem persist_of_interrupted {writer writer' : ω} {bytes : List UInt8} {e : WriteError}
    (h : Writer.write writer bytes = (writer', .error e)) (hkind : e.kind = .interrupted) :
    persist bytes writer = persist bytes writer' := by
  rw [persist]
  split
  · next hwrite =>
    cases h.symm.trans hwrite
    rw [dif_pos hkind]
  · next hwrite => cases h.symm.trans hwrite

theorem persist_of_settled {writer : ω} {bytes : List UInt8} {r : ω × Except WriteError Nat}
    (h : Writer.write writer bytes = r) (hkind : ∀ e, r.2 = .error e → e.kind ≠ .interrupted) :
    persist bytes writer = r := by
  subst h
  rw [persist]
  split
  · next hwrite =>
    rw [hwrite] at hkind
    rw [dif_neg (hkind _ rfl), hwrite]
  · next hwrite => exact hwrite.symm

/-- However often it is tried, in the end a write is not interrupted. -/
theorem kind_of_persist {writer : ω} {bytes : List UInt8} {e : WriteError}
    (h : (persist bytes writer).2 = .error e) : e.kind ≠ .interrupted := by
  fun_induction persist bytes writer with
  | case1 writer writer' e' hwrite hkind ih => exact ih h
  | case2 writer writer' e' hwrite hkind =>
    cases h
    exact hkind
  | case3 => cases h

theorem kind_of_writeAll {writer : ω} {bytes : List UInt8} {e : WriteError}
    (h : (writeAll writer bytes).2 = some e) : e.kind ≠ .interrupted := by
  fun_induction writeAll writer bytes with
  | case1 => cases h
  | case2 writer b rest writer' e' hpersist =>
    cases h
    exact kind_of_persist (congrArg Prod.snd hpersist)
  | case3 =>
    cases h
    exact nofun
  | case4 writer b rest writer' n hpersist ih => exact ih h

theorem writeAll_of_error {writer writer' : ω} {bytes : List UInt8} {e : WriteError}
    (hbytes : bytes ≠ []) (h : persist bytes writer = (writer', .error e)) :
    writeAll writer bytes = (writer', some e) := by
  obtain ⟨b, rest, rfl⟩ := List.exists_cons_of_ne_nil hbytes
  rw [writeAll, h]

theorem writeAll_of_ok {writer writer' : ω} {bytes : List UInt8} {k : Nat} (hbytes : bytes ≠ [])
    (hk : 0 < k) (h : persist bytes writer = (writer', .ok k)) :
    writeAll writer bytes = writeAll writer' (bytes.drop k) := by
  obtain ⟨b, rest, rfl⟩ := List.exists_cons_of_ne_nil hbytes
  obtain ⟨k, rfl⟩ := Nat.exists_eq_add_one.mpr hk
  rw [writeAll, h]
  rfl

namespace Writer.Closing

/-- Tried as long as it is interrupted, a write takes a part of the bytes, or there is no more room
and it fails. -/
theorem persist_cases (h : Writer.Closing taken failure n writer) {bytes : List UInt8}
    (hbytes : bytes ≠ []) :
    (∃ writer' k, persist bytes writer = (writer', .ok k) ∧ 0 < k ∧ k ≤ n ∧ k ≤ bytes.length ∧
        taken writer' = taken writer ++ bytes.take k ∧
        Writer.Closing taken failure (n - k) writer') ∨
      ∃ writer', persist bytes writer = (writer', .error failure) ∧ n = 0 ∧
        taken writer' = taken writer := by
  induction h with
  | @intro n writer hanswers hok hinterrupted ih ih' =>
    generalize hwrite : Writer.write writer bytes = r
    have hr := hanswers bytes hbytes
    rw [hwrite] at hr
    cases hr with
    | @took writer' k hpos hle hlength htaken =>
      exact .inl ⟨writer', k, persist_of_settled hwrite nofun, hpos, hle, hlength, htaken,
        hok bytes writer' k hbytes hwrite⟩
    | @failed writer' hfull hkind htaken =>
      refine .inr ⟨writer', persist_of_settled hwrite ?_, hfull, htaken⟩
      rintro e ⟨⟩
      exact hkind
    | @interrupted writer' e hkind htaken =>
      have hrest := ih' bytes writer' e hbytes hwrite hkind
      rwa [← persist_of_interrupted hwrite hkind, htaken] at hrest

theorem writeAll_fits (h : Writer.Closing taken failure n writer) {bytes : List UInt8}
    (hlength : bytes.length ≤ n) :
    (writeAll writer bytes).2 = none ∧
      taken (writeAll writer bytes).1 = taken writer ++ bytes ∧
      Writer.Closing taken failure (n - bytes.length) (writeAll writer bytes).1 := by
  induction n using Nat.strongRecOn generalizing writer bytes with
  | ind n ih =>
    by_cases hbytes : bytes = []
    · subst hbytes
      rw [writeAll]
      exact ⟨rfl, (List.append_nil _).symm, h⟩
    obtain ⟨writer', k, hpersist, hpos, hle, hk, htaken, hclosing⟩ | ⟨-, -, hfull, -⟩ :=
      h.persist_cases hbytes
    · have hdrop : (bytes.drop k).length ≤ n - k := by
        rw [List.length_drop]
        omega
      obtain ⟨hnone, htaken', hclosing'⟩ := ih (n - k) (by omega) hclosing hdrop
      rw [writeAll_of_ok hbytes hpos hpersist]
      refine ⟨hnone, ?_, ?_⟩
      · rw [htaken', htaken, List.append_assoc, List.take_append_drop]
      · rw [List.length_drop] at hclosing'
        rwa [show n - k - (bytes.length - k) = n - bytes.length by omega] at hclosing'
    · have := List.length_pos_of_ne_nil hbytes
      omega

theorem writeAll_over (h : Writer.Closing taken failure n writer) {bytes : List UInt8}
    (hlength : n < bytes.length) :
    (writeAll writer bytes).2 = some failure ∧
      taken (writeAll writer bytes).1 = taken writer ++ bytes.take n := by
  induction n using Nat.strongRecOn generalizing writer bytes with
  | ind n ih =>
    have hbytes : bytes ≠ [] := List.ne_nil_of_length_pos (Nat.zero_lt_of_lt hlength)
    obtain ⟨writer', k, hpersist, hpos, hle, -, htaken, hclosing⟩ |
      ⟨writer', hpersist, hfull, htaken⟩ := h.persist_cases hbytes
    · have hdrop : n - k < (bytes.drop k).length := by
        rw [List.length_drop]
        omega
      obtain ⟨hsome, htaken'⟩ := ih (n - k) (by omega) hclosing hdrop
      rw [writeAll_of_ok hbytes hpos hpersist]
      refine ⟨hsome, ?_⟩
      rw [htaken', htaken, List.append_assoc, ← List.take_add, Nat.add_sub_cancel' hle]
    · rw [writeAll_of_error hbytes hpersist, hfull]
      exact ⟨rfl, by rw [htaken, List.take_zero, List.append_nil]⟩

end Writer.Closing

namespace BoundedWriter

variable {w : BoundedWriter}

theorem write_full (hroom : w.room = some 0) (hfails : w.failsWhenFull = true)
    (bytes : List UInt8) : Writer.write w bytes = (w, .error .closed) := by
  change w.write bytes = _
  simp only [write, hroom, hfails, if_true]

theorem write_part {room : Nat} (hroom : w.room = some (room + 1)) (bytes : List UInt8) :
    Writer.write w bytes =
      ({ w with
          taken := w.taken ++ bytes.take (room + 1)
          room := some (room + 1 - (bytes.take (room + 1)).length) },
        .ok (bytes.take (room + 1)).length) := by
  change w.write bytes = _
  simp only [write, hroom]

theorem closing (hroom : w.room = some n) (hfails : w.failsWhenFull = true) :
    Writer.Closing (fun w : BoundedWriter => w.taken.toList) .closed n w := by
  induction n using Nat.strongRecOn generalizing w with
  | ind n ih =>
    cases n with
    | zero =>
      have hwrite := write_full hroom hfails
      refine .intro (fun bytes _ => ?_) (fun bytes w' k _ hok => ?_)
        fun bytes w' e _ herror hkind => ?_
      · rw [hwrite]
        exact .failed rfl (by decide) rfl
      · cases (hwrite bytes).symm.trans hok
      · cases (hwrite bytes).symm.trans herror
        cases hkind
    | succ room =>
      have hwrite := write_part hroom
      have hpart {bytes : List UInt8} (hbytes : bytes ≠ []) :
          0 < (bytes.take (room + 1)).length := by
        have := List.length_pos_of_ne_nil hbytes
        rw [List.length_take]
        omega
      refine .intro (fun bytes hbytes => ?_) (fun bytes w' k hbytes hok => ?_)
        fun bytes w' e _ herror _ => ?_
      · rw [hwrite]
        refine .took (hpart hbytes) (List.length_take_le _ _) (List.length_take_le' _ _) ?_
        simp
      · cases (hwrite bytes).symm.trans hok
        exact ih _ (by have := hpart hbytes; omega) rfl hfails
      · cases (hwrite bytes).symm.trans herror

end BoundedWriter

theorem toList_byteArray (bytes : ByteArray) : bytes.toList = bytes.data.toList := by
  have hloop (i : Nat) (seen : List UInt8) :
      ByteArray.toList.loop bytes i seen = seen.reverse ++ bytes.data.toList.drop i := by
    fun_induction ByteArray.toList.loop bytes i seen with
    | case1 i seen hlt ih =>
      have hlt' : i < bytes.data.size := hlt
      have hget : bytes.get! i = bytes.data[i] := getElem!_pos bytes.data i hlt'
      have hdrop : bytes.data.toList.drop i = bytes.data[i] :: bytes.data.toList.drop (i + 1) := by
        rw [List.drop_eq_getElem_cons (by simpa using hlt'), Array.getElem_toList]
      rw [ih, hget, hdrop, List.reverse_cons, List.append_assoc, List.singleton_append]
    | case2 i seen hle =>
      have hle' : bytes.data.toList.length ≤ i := Nat.le_of_not_lt hle
      rw [List.drop_of_length_le hle', List.append_nil]
  exact hloop 0 []

theorem utf8_append (text text' : String) :
    (text ++ text').toUTF8.toList = text.toUTF8.toList ++ text'.toUTF8.toList := by
  simp only [String.toUTF8_eq_toByteArray, toList_byteArray, String.toByteArray_append,
    ByteArray.toList_data_append]

namespace ByteSink

theorem write_open {s : ByteSink ω} (h : s.error = none) (text : String) :
    Sink.write s text =
      ({ writer := (writeAll s.writer text.toUTF8.toList).1
         error := (writeAll s.writer text.toUTF8.toList).2 },
        (writeAll s.writer text.toUTF8.toList).2.isNone) := by
  change s.write text = _
  rw [write, h]

theorem bounded :
    Sink.Bounded (fun text => text.toUTF8.toList) (fun s : ByteSink ω => taken s.writer)
      (fun n s => s.error = none ∧ Writer.Closing taken failure n s.writer)
      (fun s => s.error = some failure) where
  units_empty := ByteArray.toList_empty
  units_append := utf8_append
  fits hroom hlength := by
    obtain ⟨hnone, htaken, hclosing⟩ := hroom.2.writeAll_fits hlength
    rw [write_open hroom.1, hnone]
    exact ⟨rfl, htaken, rfl, hclosing⟩
  exceeds hroom hlength := by
    obtain ⟨hsome, htaken⟩ := hroom.2.writeAll_over hlength
    rw [write_open hroom.1, hsome]
    exact ⟨rfl, htaken, rfl⟩

end ByteSink

end Bytes

section Runs

variable {τ α : Type} [Sink τ] {units : String → List α} {written : τ → List α}
  {room : Nat → τ → Prop} {full : τ → Prop}

/-- Of `all` that is written no more than `n` units were seen, and if that is less than all, the
answer `result` was not reached. -/
def StopsAfter (n : Nat) (all : List α) (result : Except RunError Unit) (seen : List α)
    (answer : Except RunError Unit) : Prop :=
  if all.length ≤ n then answer = result ∧ seen = all
  else answer = .error .output ∧ seen = all.take n

theorem keeps_first_failure {fits : Prop} [Decidable fits] {kept : Option WriteError}
    {failure : WriteError} {closing : Nat → Prop}
    (h : if fits then ∃ k, kept = none ∧ closing k else kept = some failure) :
    kept = if fits then none else some failure := by
  split at h
  · next hfits =>
    obtain ⟨_, hnone, -⟩ := h
    rw [hnone, if_pos hfits]
  · next hfits =>
    rw [h, if_neg hfits]

theorem run_unbounded (w : World) (o : RunOptions) (t : Template) (c : Context) :
    (run w o t c ({} : TextSink)).result = (run w o t c ({} : Transcript)).result ∧
      (run w o t c ({} : TextSink)).sink.text =
        String.join (run w o t c ({} : Transcript)).sink.texts := by
  obtain ⟨hsink, htaken, -⟩ := run_offer w o t c ({} : TextSink)
  rw [TextSink.offer_unbounded] at hsink htaken
  exact ⟨(htaken rfl).1, by rw [hsink, String.empty_append]⟩

theorem run_bounded (h : Sink.Bounded units written room full) {n : Nat} (sink : τ)
    (hroom : room n sink) (hempty : written sink = []) (w : World) (o : RunOptions) (t : Template)
    (c : Context) :
    let whole := run w o t c ({} : TextSink)
    let r := run w o t c sink
    StopsAfter n (units whole.sink.text) whole.result (written r.sink) r.result ∧
      if (units whole.sink.text).length ≤ n then ∃ k, room k r.sink else full r.sink := by
  intro whole r
  obtain ⟨hresult, htext⟩ := run_unbounded w o t c
  obtain ⟨hsink, htaken, hrefused⟩ := run_offer w o t c sink
  rw [StopsAfter, hresult, htext]
  split
  · next hle =>
    obtain ⟨htrue, hwritten, hroom'⟩ := h.offer_fits hroom hle
    rw [hempty, List.nil_append, ← hsink] at hwritten
    rw [← hsink] at hroom'
    exact ⟨⟨(htaken htrue).1, hwritten⟩, _, hroom'⟩
  · next hlt =>
    obtain ⟨hfalse, hwritten, hfull⟩ := h.offer_over hroom (Nat.lt_of_not_le hlt)
    rw [hempty, List.nil_append, ← hsink] at hwritten
    rw [← hsink] at hfull
    exact ⟨⟨hrefused hfalse, hwritten⟩, hfull⟩

/-- The texts of a run are the same for all sinks, and decide with the sink how the run ends. -/
theorem run_texts (w : World) (o : RunOptions) (t : Template) (c : Context) (sink : τ) :
    let whole := run w o t c ({} : TextSink)
    let texts := (run w o t c ({} : Transcript)).sink.texts
    let r := run w o t c sink
    r.sink = (Sink.offer sink texts).1 ∧
      r.result = if (Sink.offer sink texts).2 then whole.result else .error .output := by
  intro whole texts r
  obtain ⟨hsink, htaken, hrefused⟩ := run_offer w o t c sink
  refine ⟨hsink, ?_⟩
  split
  · next htrue => rw [(htaken htrue).1, (run_unbounded w o t c).1]
  · next hfalse => exact hrefused (Bool.not_eq_true _ ▸ hfalse)

end Runs

/-- A run into a sink that takes `n` characters, or into a writer that takes `n` bytes, ends like
one into a sink that takes everything if what is written has no more; else it ends with a failure of
the sink, which has taken exactly the beginning, and the writer's failure is kept. The texts that a
run writes one by one are the same for all sinks, and after the first one that is refused nothing is
written. -/
theorem run_stopsAfter {ω : Type} [Writer ω] {taken : ω → List UInt8} {failure : WriteError}
    {n : Nat} {writer : ω} (hwriter : Writer.Closing taken failure n writer)
    (hempty : taken writer = []) (w : World) (o : RunOptions) (t : Template) (c : Context) :
    let whole := run w o t c ({} : TextSink)
    let text := whole.sink.text
    let texts := (run w o t c ({} : Transcript)).sink.texts
    let chars := run w o t c ({ room := some n } : TextSink)
    let bytes := run w o t c ({ writer } : ByteSink ω)
    StopsAfter n text.toList whole.result chars.sink.text.toList chars.result ∧
      StopsAfter n text.toUTF8.toList whole.result (taken bytes.sink.writer) bytes.result ∧
      bytes.sink.error = (if text.toUTF8.toList.length ≤ n then none else some failure) ∧
      String.join texts = text ∧
      ∀ {τ : Type} [Sink τ] (sink : τ),
        let r := run w o t c sink
        r.sink = (Sink.offer sink texts).1 ∧
          r.result = if (Sink.offer sink texts).2 then whole.result else .error .output := by
  intro whole text texts chars bytes
  have hchars := run_bounded TextSink.bounded { room := some n } rfl rfl w o t c
  have hclosing : ({ writer } : ByteSink ω).error = none ∧
      Writer.Closing taken failure n writer := ⟨rfl, hwriter⟩
  have hbytes := run_bounded ByteSink.bounded { writer } hclosing hempty w o t c
  exact ⟨hchars.1, hbytes.1, keeps_first_failure hbytes.2, (run_unbounded w o t c).2.symm,
    fun sink => run_texts w o t c sink⟩

/-- The second character takes two bytes. -/
theorem run_stopsAfter_two :
    ∃ p, compile "t" "h\u00e9<&name>".toList { params := ["name"] } = .ok p ∧
      let t : Template := ⟨p, 0⟩
      let chars := run {} {} t (.fresh t) ({ room := some 2 } : TextSink)
      let bytes :=
        run {} {} t (.fresh t) ({ writer := { room := some 2 } } : ByteSink BoundedWriter)
      chars.result = .error .output ∧ chars.sink.text = "h\u00e9" ∧
        bytes.result = .error .output ∧ bytes.sink.writer.taken.toList = [104, 195] ∧
        bytes.sink.error = some .closed := by
  obtain ⟨p, hp⟩ : ∃ p, compile "t" "h\u00e9<&name>".toList { params := ["name"] } = .ok p :=
    exists_of_isOk (by decide +kernel)
  refine ⟨p, hp, ?_⟩
  intro t chars bytes
  have htext : (run {} {} t (.fresh t) ({} : TextSink)).sink.text =
      "h\u00e9" ++ placeholder "name" "no value" := by
    have hrun : (compile "t" "h\u00e9<&name>".toList { params := ["name"] }).toOption.map (fun p =>
        (run {} {} ⟨p, 0⟩ (.fresh ⟨p, 0⟩) ({} : TextSink)).sink.text) =
          some ("h\u00e9" ++ placeholder "name" "no value") := by decide +kernel
    rw [hp] at hrun
    exact Option.some.inj hrun
  obtain ⟨hchars, hbytes, hkept, -⟩ := run_stopsAfter
    (BoundedWriter.closing (w := { room := some 2 }) rfl rfl) rfl {} {} t (.fresh t)
  rw [htext] at hchars hbytes hkept
  rw [StopsAfter, if_neg (by decide +kernel)] at hchars hbytes
  rw [if_neg (by decide +kernel)] at hkept
  refine ⟨hchars.1, ?_, hbytes.1, ?_, hkept⟩
  · have hseen := hchars.2.trans (by decide +kernel : _ = "h\u00e9".toList)
    exact String.toList_inj.mp hseen
  · exact hbytes.2.trans (by decide +kernel)

end TemplateEngine
