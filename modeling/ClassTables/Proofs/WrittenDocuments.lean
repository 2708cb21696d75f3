import ClassTables.Json.Parser
import ClassTables.Proofs.WrittenTokens
/-!
# Reading written documents

The reader of documents takes tokens with a stack of open containers.  The tokens of a document bring
it from where a value may start to where the value has been put in place (`foldlM_tokens`), whatever
containers are open around it; the tokens of a container's contents put all of them on top of what the
container holds already.  These three facts go together, in one induction on the document.

Main statement: a document is read back from any text that spells its tokens (`parse?_of_spells`).
-/

namespace ClassTables.Json

/-! ## Tokens of documents -/

theorem exists_tokens_eq_cons (j : Json) : ∃ t ts, j.tokens = t :: ts ∧ t ≠ .closeArr := by
  cases j <;> exact ⟨_, _, rfl, nofun⟩

theorem itemTokens_cons_cons (j k : Json) (js : List Json) :
    itemTokens (j :: k :: js) = j.tokens ++ .comma :: itemTokens (k :: js) := rfl

theorem memberTokens_cons_cons (k : Literal) (j : Json) (m : Literal × Json)
    (ms : List (Literal × Json)) :
    memberTokens ((k, j) :: m :: ms) =
      .str k :: .colon :: (j.tokens ++ .comma :: memberTokens (m :: ms)) := rfl

/-! ## From tokens to documents -/

namespace Parser

/-- Behind an opening bracket the items are read as anywhere. -/
theorem foldlM_firstItem (j : Json) (js : List Json) (stack : List Frame) :
    (itemTokens (j :: js)).foldlM step? ⟨stack, .firstItem⟩ =
      (itemTokens (j :: js)).foldlM step? ⟨stack, .value⟩ := by
  obtain ⟨t, ts, hts, hne⟩ := exists_tokens_eq_cons j
  cases js with
  | nil => simp [itemTokens, hts, step?, hne]
  | cons k js => simp [itemTokens_cons_cons, hts, step?, hne]

/-- Behind an opening brace the members are read as anywhere. -/
theorem foldlM_firstKey (m : Literal × Json) (ms : List (Literal × Json)) (stack : List Frame) :
    (memberTokens (m :: ms)).foldlM step? ⟨stack, .firstKey⟩ =
      (memberTokens (m :: ms)).foldlM step? ⟨stack, .key⟩ := by
  cases ms <;> rfl

mutual

/-- A value is put in place. -/
theorem foldlM_tokens (j : Json) (stack : List Frame) :
    j.tokens.foldlM step? ⟨stack, .value⟩ = place j stack := by
  match j with
  | .null | .bool _ | .nat _ | .number _ | .str _ => simp [tokens, step?, openValue?]
  | .arr [] => simp [tokens, itemTokens, step?, openValue?, close?]
  | .obj [] => simp [tokens, memberTokens, step?, openValue?, close?]
  | .arr (j :: js) =>
      have hopen : step? ⟨stack, .value⟩ .openArr = some ⟨.arr [] :: stack, .firstItem⟩ := rfl
      have hitems := foldlM_itemTokens (j :: js) [] stack nofun
      rw [← foldlM_firstItem] at hitems
      rw [tokens, List.foldlM_cons, hopen]
      simp [hitems, step?, close?]
  | .obj (m :: ms) =>
      have hopen : step? ⟨stack, .value⟩ .openObj = some ⟨.obj [] :: stack, .firstKey⟩ := rfl
      have hmembers := foldlM_memberTokens (m :: ms) [] stack nofun
      rw [← foldlM_firstKey] at hmembers
      rw [tokens, List.foldlM_cons, hopen]
      simp [hmembers, step?, close?]

theorem foldlM_itemTokens (js items : List Json) (stack : List Frame) (h : js ≠ []) :
    (itemTokens js).foldlM step? ⟨.arr items :: stack, .value⟩ =
      some ⟨.arr (js.reverse ++ items) :: stack, .more⟩ := by
  match js with
  | [] => exact absurd rfl h
  | [j] => simp [itemTokens, foldlM_tokens j, place]
  | j :: k :: js =>
      have := foldlM_itemTokens (k :: js) (j :: items) stack nofun
      simpa [itemTokens_cons_cons, foldlM_tokens j, place, step?] using this

theorem foldlM_memberTokens (ms members : List (Literal × Json)) (stack : List Frame)
    (h : ms ≠ []) :
    (memberTokens ms).foldlM step? ⟨.obj members :: stack, .key⟩ =
      some ⟨.obj (ms.reverse ++ members) :: stack, .more⟩ := by
  match ms with
  | [] => exact absurd rfl h
  | [(key, j)] => simp [memberTokens, step?, openKey?, foldlM_tokens j, place]
  | (key, j) :: m :: ms =>
      have := foldlM_memberTokens (m :: ms) ((key, j) :: members) stack nofun
      simpa [memberTokens_cons_cons, step?, openKey?, foldlM_tokens j, place] using this

end

end Parser

/-- The tokens of a document spell it. -/
theorem ofTokens?_tokens (j : Json) : ofTokens? j.tokens = some j := by
  simp [ofTokens?, Parser.foldlM_tokens, Parser.place, Parser.finish?]

/-! ## Numbers are apart -/

theorem separated_cons {t : Token} {ts : List Token} (h : t.isNumber = false) :
    Separated (t :: ts) ↔ Separated ts := by
  simp [Separated, List.isChain_cons, h]

theorem separated_append_cons {t : Token} {ts us : List Token} (h : t.isNumber = false) :
    Separated (ts ++ t :: us) ↔ Separated ts ∧ Separated us := by
  simp [Separated, List.isChain_append, List.isChain_cons, h]

mutual

theorem separated_tokens (j : Json) : Separated j.tokens := by
  match j with
  | .null | .bool _ | .nat _ | .number _ | .str _ => exact .singleton _
  | .arr js =>
      rw [tokens, separated_cons rfl, separated_append_cons rfl]
      exact ⟨separated_itemTokens js, .nil⟩
  | .obj ms =>
      rw [tokens, separated_cons rfl, separated_append_cons rfl]
      exact ⟨separated_memberTokens ms, .nil⟩

theorem separated_itemTokens (js : List Json) : Separated (itemTokens js) := by
  match js with
  | [] => exact .nil
  | [j] => exact separated_tokens j
  | j :: k :: js =>
      rw [itemTokens_cons_cons, separated_append_cons rfl]
      exact ⟨separated_tokens j, separated_itemTokens (k :: js)⟩

theorem separated_memberTokens (ms : List (Literal × Json)) : Separated (memberTokens ms) := by
  match ms with
  | [] => exact .nil
  | [(k, j)] =>
      rw [memberTokens, separated_cons rfl, separated_cons rfl]
      exact separated_tokens j
  | (k, j) :: m :: ms =>
      rw [memberTokens_cons_cons, separated_cons rfl, separated_cons rfl, separated_append_cons rfl]
      exact ⟨separated_tokens j, separated_memberTokens (m :: ms)⟩

end

/-! ## Documents that can be written -/

/-- Every number in the document has the spelling of one. -/
def Proper (j : Json) : Prop := ∀ t ∈ j.tokens, t.Proper

theorem proper_item {js : List Json} (h : ∀ j ∈ js, j.Proper) : ∀ t ∈ itemTokens js, t.Proper := by
  induction js with
  | nil => exact nofun
  | cons j js ih =>
      obtain ⟨hj, hjs⟩ := List.forall_mem_cons.mp h
      cases js with
      | nil => exact hj
      | cons k js =>
          rw [itemTokens_cons_cons]
          simp only [List.forall_mem_append, List.forall_mem_cons]
          exact ⟨hj, trivial, ih hjs⟩

theorem proper_member {ms : List (Literal × Json)} (h : ∀ m ∈ ms, m.2.Proper) :
    ∀ t ∈ memberTokens ms, t.Proper := by
  induction ms with
  | nil => exact nofun
  | cons m ms ih =>
      obtain ⟨hm, hms⟩ := List.forall_mem_cons.mp h
      cases ms with
      | nil =>
          rw [memberTokens]
          simp only [List.forall_mem_cons]
          exact ⟨trivial, trivial, hm⟩
      | cons n ms =>
          rw [memberTokens_cons_cons]
          simp only [List.forall_mem_append, List.forall_mem_cons]
          exact ⟨trivial, trivial, hm, trivial, ih hms⟩

theorem proper_arr {js : List Json} (h : ∀ j ∈ js, j.Proper) : (Json.arr js).Proper := by
  simp only [Proper, tokens, List.forall_mem_cons, List.forall_mem_append]
  exact ⟨trivial, proper_item h, trivial, nofun⟩

theorem proper_obj {ms : List (Literal × Json)} (h : ∀ m ∈ ms, m.2.Proper) :
    (Json.obj ms).Proper := by
  simp only [Proper, tokens, List.forall_mem_cons, List.forall_mem_append]
  exact ⟨trivial, proper_member h, trivial, nofun⟩

/-! ## Documents and texts -/

/-- A document is read back from its tokens with any blanks between them. -/
theorem parse?_of_spells {j : Json} {text : String} (proper : j.Proper)
    (h : Spells j.tokens text.toList) : parse? text = some j := by
  rw [parse?, lex?_of_spells h proper (separated_tokens j)]
  exact ofTokens?_tokens j

/-- The text without blanks is one that spells the document. -/
theorem spells_print (j : Json) : Spells j.tokens j.print.toList := by
  rw [print, String.toList_ofList]
  exact spells_flatMap_chars j.tokens

end ClassTables.Json
