import MetaResearch.Model.ChatProgress.ReplyProgress
import MetaResearch.Soundness.ChatProgress.StringPrefix
import MetaResearch.ToMathlib.Check

/-! # The length of the preview

Every paragraph is cut to what the others leave of the length, whichever of them it replaces.
-/

namespace MetaResearch.ChatProgress

variable {F : Type} {runtime : Runtime F} {preview : Preview}

theorem length_intercalate (separator : PyText) (texts : List PyText) :
    (separator.intercalate texts).length = (texts.map List.length).sum + (texts.length - 1) * separator.length := by
  induction texts with
  | nil => rw [List.intercalate_nil]; simp
  | cons first rest ih =>
    cases rest with
    | nil =>
      rw [List.intercalate_singleton]
      simp
    | cons second others =>
      rw [List.intercalate_cons_cons, List.length_append, List.length_append, ih]
      simp only [List.map_cons, List.sum_cons, List.length_cons, Nat.add_sub_cancel, Nat.succ_mul]
      omega

theorem Preview.length_text (preview : Preview) : preview.text.length = preview.used := by
  have separator : (PyText.ofString "\n\n").length = 2 := by decide
  rw [Preview.text, length_intercalate, List.map_map, List.length_map, separator]
  rfl

/-- Neither the text nor the reply is too long. -/
structure Preview.Bounded (preview : Preview) : Prop where
  text : preview.used ≤ chatReplyMaxLength
  reply : preview.reply.length ≤ chatReplyMaxLength

theorem bounded_empty : ({} : Preview).Bounded := ⟨Nat.zero_le _, Nat.zero_le _⟩

/-- A paragraph is stored in the place of the one that its key has, or as a new one. -/
theorem Preview.Bounded.store (bounded : preview.Bounded) {key : Key} {previous : Option PyText}
    (found : preview.paragraphs.lookup key = previous) (answer : PyText) :
    (preview.store key previous answer).Bounded := by
  have room := bounded.text
  rw [Preview.used] at room
  rw [Preview.store]
  split_ifs with space
  · refine ⟨?_, bounded.reply⟩
    cases previous with
    | none =>
      rw [Preview.used]
      simp only [Dict.set_of_lookup_eq_none found, List.map_append, List.map_cons, List.map_nil, List.sum_append,
        List.sum_cons, List.sum_nil, List.length_append, List.length_singleton, List.length_take]
      rw [Preview.available, Preview.used] at space ⊢
      cases paragraphs : preview.paragraphs with
      | nil =>
        rw [paragraphs, if_pos rfl] at space
        simp only [List.map_nil, List.sum_nil, List.length_nil, if_true]
        omega
      | cons first rest =>
        rw [paragraphs, if_neg (List.cons_ne_nil _ _)] at space
        rw [paragraphs] at room
        simp only [List.length_cons, reduceCtorEq, if_false] at space room ⊢
        omega
    | some previous =>
      obtain ⟨sum, length⟩ := Dict.sum_set_of_lookup_eq_some found List.length
        (answer.take (preview.available (some previous)).toNat)
      rw [List.length_take] at sum
      rw [Preview.used]
      simp only [length]
      rw [Preview.available, Preview.used] at space sum ⊢
      omega
  · exact bounded

theorem Preview.Bounded.cleared (bounded : preview.Bounded) (structured : Bool) : (preview.cleared structured).Bounded := by
  rw [Preview.cleared]
  split_ifs
  · exact ⟨Nat.zero_le _, bounded.reply⟩
  · exact bounded

theorem Preview.Bounded.put (bounded : preview.Bounded) {answer : PyText} {structured : Bool}
    (short : structured = true → answer.length ≤ chatReplyMaxLength) (key : Key) (final : Bool) :
    (preview.put key structured final answer).Bounded := by
  simp only [Preview.put]
  split_ifs with same schema last fresh begins further
  · exact bounded
  · exact Preview.Bounded.store ⟨Nat.zero_le _, short schema⟩ rfl answer
  · exact ⟨bounded.text, short schema⟩
  · exact Preview.Bounded.store ⟨Nat.zero_le _, short schema⟩ rfl answer
  · have replied : Preview.Bounded { preview with reply := answer } := ⟨bounded.text, short schema⟩
    exact replied.store fresh.1 answer
  · have replied : Preview.Bounded { preview with reply := answer } := ⟨bounded.text, short schema⟩
    exact replied.store rfl answer
  · exact bounded.store rfl answer

theorem Preview.Bounded.ended (bounded : preview.Bounded) : preview.ended.Bounded := by
  rw [Preview.ended]
  split_ifs
  · exact bounded
  · refine ⟨?_, bounded.reply⟩
    simpa [Preview.used] using bounded.reply

/-! ### Structured answers -/

variable {decimal : Char → Option (Fin 10)}

theorem prefixFrom_length {left skip : ℕ} {source answer : PyText}
    (shown : prefixFrom decimal left skip source = .ok answer) : answer.length ≤ left := by
  induction source generalizing left skip answer with
  | nil =>
    rw [prefixFrom] at shown
    rw [← Except.ok.inj shown]
    exact Nat.zero_le _
  | cons char rest ih =>
    cases skip with
    | succ skip =>
      rw [prefixFrom] at shown
      exact ih shown
    | zero =>
      cases left with
      | zero =>
        rw [prefixFrom] at shown
        rw [← Except.ok.inj shown]
        exact Nat.zero_le _
      | succ left =>
        rw [prefixFrom] at shown
        split at shown
        · cases shown
        · rw [← Except.ok.inj shown]
          exact Nat.zero_le _
        · obtain ⟨others, further, rfl⟩ := JsonDecode.exists_of_map_eq_ok shown
          exact Nat.succ_le_succ (ih further)

theorem stringPrefix_length {source answer : PyText} (shown : stringPrefix decimal source = .ok answer) :
    answer.length ≤ chatReplyMaxLength := by
  rw [stringPrefix] at shown
  split at shown
  · rw [← Except.ok.inj shown]
    exact Nat.zero_le _
  · exact prefixFrom_length shown

theorem walk_length {limits : JsonDecode.Limits} {float : PyText → F} {fuel : ℕ} {source answer : PyText}
    (walked : walk decimal limits float fuel source = .ok answer) : answer.length ≤ chatReplyMaxLength := by
  induction fuel generalizing source with
  | zero =>
    rw [walk] at walked
    rw [← Except.ok.inj walked]
    exact Nat.zero_le _
  | succ fuel ih =>
    have nothing : answer = [] → answer.length ≤ chatReplyMaxLength := by
      rintro rfl
      exact Nat.zero_le _
    rw [walk] at walked
    split at walked
    · split at walked
      · exact nothing (Except.ok.inj walked).symm
      · split_ifs at walked
        · exact stringPrefix_length walked
        · split at walked
          · exact nothing (Except.ok.inj walked).symm
          · split at walked
            · exact nothing (Except.ok.inj walked).symm
            · exact ih walked
    · exact nothing (Except.ok.inj walked).symm

theorem answerText_length {limits : JsonDecode.Limits} {float : PyText → F} {text answer : PyText} {structured : Bool}
    (answered : answerText decimal limits float text = .ok (structured, answer)) :
    answer.length ≤ chatReplyMaxLength := by
  rw [answerText] at answered
  split_ifs at answered
  · rw [← (Prod.mk.inj (Except.ok.inj answered)).2, List.length_take]
    exact Nat.min_le_left _ _
  · split at answered
    · rw [← (Prod.mk.inj (Except.ok.inj answered)).2]
      exact Nat.zero_le _
    · obtain ⟨found, walked, same⟩ := JsonDecode.exists_of_map_eq_ok answered
      rw [← (Prod.mk.inj same).2]
      exact walk_length walked

/-! ### Records -/

theorem Preview.Bounded.accept (bounded : preview.Bounded) {record : List UInt8} {next : Preview}
    (accepted : accept runtime preview record = .ok next) : next.Bounded := by
  rw [ChatProgress.accept] at accepted
  split at accepted
  · exact Except.ok.inj accepted ▸ bounded
  · split_ifs at accepted
    · exact Except.ok.inj accepted ▸ bounded.ended
    · split at accepted
      · cases accepted
      · exact Except.ok.inj accepted ▸ bounded
      · split at accepted
        · cases accepted
        · rename_i structured answer answered
          rw [Preview.answered] at accepted
          split_ifs at accepted
          · exact Except.ok.inj accepted ▸ bounded
          · exact Except.ok.inj accepted ▸ (bounded.cleared structured).put (fun _ => answerText_length answered) _ _

theorem Preview.Bounded.acceptAll (bounded : preview.Bounded) {records : List (List UInt8)} {next : Preview}
    (accepted : acceptAll runtime preview records = .ok next) : next.Bounded :=
  foldlM_ok_induction (motive := fun _ preview => preview.Bounded) bounded
    (fun _ _ _ _ bounded accepted => bounded.accept accepted) accepted

end MetaResearch.ChatProgress
