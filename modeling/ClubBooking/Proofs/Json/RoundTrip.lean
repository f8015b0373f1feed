import ClubBooking.Json.Reader
import ClubBooking.Proofs.Json.Spelling

/-! Reading the compact text of a tree gives the tree back. Every value brings the reader from where
it awaits one to where the value is closed, whatever is open around it. -/

namespace ClubBooking.Json

inductive IsWellFormed : Json → Prop where
  | null : IsWellFormed .null
  | bool (b : Bool) : IsWellFormed (.bool b)
  | number {n : JsonNumber} (h : n.IsWellFormed) : IsWellFormed (.number n)
  | string (s : Option String) : IsWellFormed (.string s)
  | array {items : List Json} (h : ∀ j ∈ items, IsWellFormed j) : IsWellFormed (.array items)
  | object {members : List (Option String × Json)} (h : ∀ m ∈ members, IsWellFormed m.2) :
      IsWellFormed (.object members)

/-- From a state, a text is taken in token by token, and at its end a value is complete. -/
inductive Reads : Reading → List Char → Json → Prop where
  | nil (j : Json) : Reads ⟨[], .nothing j⟩ [] j
  | token {r r' : Reading} {c : Char} {cs rest : List Char} {j : Json} (t : Token)
      (hspace : isSpace c = false) (htoken : token? (c :: cs ++ rest) = some (t, rest))
      (hstep : r.step t = some r') (h : Reads r' rest j) : Reads r (c :: cs ++ rest) j

variable {r : Reading} {cs rest : List Char} {j v : Json} {stack : List Frame}

theorem Reads.tokensWithin {fuel : Nat} (h : Reads r cs j) (hfuel : cs.length ≤ fuel) :
    ∃ ts, tokensWithin fuel cs = some ts ∧ r.run ts = some ⟨[], .nothing j⟩ := by
  induction h generalizing fuel with
  | nil j => exact ⟨[], by cases fuel <;> rfl, rfl⟩
  | token t hspace htoken hstep _ ih =>
    cases fuel with
    | zero => cases hfuel
    | succ fuel =>
      simp only [List.cons_append, List.length_cons, List.length_append] at hfuel
      obtain ⟨ts, hts, hrun⟩ := ih (show _ ≤ fuel by omega)
      rw [List.cons_append] at htoken ⊢
      refine ⟨t :: ts, ?_, ?_⟩
      · simp [Json.tokensWithin, hspace, htoken, hts]
      · rw [Reading.run, hstep]
        exact hrun

theorem read_of_reads {s : String} (h : Reads .start s.toList j) : read s = some j := by
  obtain ⟨ts, hts, hrun⟩ := h.tokensWithin (Nat.le_refl _)
  rw [read, tokens, hts]
  simp [ofTokens?, hrun]

/-- A state that takes in the first token of a value. In an array that is still empty, a closing
bracket may stand there instead. -/
def Reading.ExpectsValue (r : Reading) : Prop :=
  ∀ t, t ≠ .rightBracket → r.step t = beginValue r.stack t

theorem expectsValue_value (stack : List Frame) : Reading.ExpectsValue ⟨stack, .value⟩ :=
  fun _ _ => rfl

theorem expectsValue_valueOrEnd (stack : List Frame) :
    Reading.ExpectsValue ⟨stack, .valueOrEnd⟩ := by
  intro t ht
  cases t <;> first | exact absurd rfl ht | (simp [Reading.step])

def Readable (v : Json) : Prop :=
  ∀ (r : Reading) (rest : List Char) (j : Json), r.ExpectsValue → Ends rest →
    Reads (.close v r.stack) rest j → Reads r (chars v ++ rest) j

theorem Reads.mark {r r' : Reading} {c : Char} (t : Token) (hspace : isSpace c = false)
    (htoken : token? (c :: rest) = some (t, rest)) (hstep : r.step t = some r')
    (h : Reads r' rest j) : Reads r (c :: rest) j :=
  @Reads.token r r' c [] rest j t hspace htoken hstep h

theorem readable_of_token {c : Char} (t : Token) (hchars : chars v = c :: cs)
    (hspace : isSpace c = false)
    (htoken : ∀ rest, Ends rest → token? (chars v ++ rest) = some (t, rest))
    (hbegin : ∀ stack, Reading.beginValue stack t = some (.close v stack)) : Readable v := by
  intro r rest j hr hrest h
  have hbracket : t ≠ .rightBracket := by
    rintro rfl
    cases hbegin []
  have hcut := htoken rest hrest
  rw [hchars] at hcut ⊢
  exact .token t hspace hcut ((hr t hbracket).trans (hbegin r.stack)) h

theorem isSpace_of_number {c : Char} (h : Text.isDigit c ∨ c = '-') : isSpace c = false := by
  rcases h with h | rfl
  · have hno : ∀ {d}, Text.isDigit d = false → c ≠ d := Text.ne_of_isDigit h
    simp [isSpace, hno (show Text.isDigit ' ' = false from rfl),
      hno (show Text.isDigit '\t' = false from rfl), hno (show Text.isDigit '\n' = false from rfl),
      hno (show Text.isDigit '\r' = false from rfl)]
  · rfl

theorem readable_null : Readable .null :=
  readable_of_token .null rfl rfl (fun _ _ => rfl) fun _ => rfl

theorem readable_bool (b : Bool) : Readable (.bool b) := by
  cases b <;> exact readable_of_token (.bool _) rfl rfl (fun _ _ => rfl) fun _ => rfl

theorem readable_number {n : JsonNumber} (hn : n.IsWellFormed) : Readable (.number n) := by
  obtain ⟨c, cs, hchars, hc⟩ := exists_numberChars hn
  exact readable_of_token (.number n) hchars (isSpace_of_number hc)
    (fun _ hrest => token?_numberChars hn hrest) fun _ => rfl

theorem readable_string (s : Option String) : Readable (.string s) := by
  cases s <;>
    exact readable_of_token (.string _) rfl rfl (fun rest _ => token?_stringChars _ rest)
      fun _ => rfl

theorem ends_itemChars (js : List Json) (rest : List Char) : Ends (itemChars js ++ rest) := by
  cases js <;> simp [itemChars, Ends]

theorem ends_memberChars (ms : List (Option String × Json)) (rest : List Char) :
    Ends (memberChars ms ++ rest) := by
  cases ms <;> simp [memberChars, Ends]

theorem reads_items {js : List Json} (hjs : ∀ v ∈ js, Readable v) (items : List Json)
    (h : Reads (.close (.array (items.reverse ++ js)) stack) rest j) :
    Reads ⟨.array items :: stack, .more⟩ (itemChars js ++ rest) j := by
  induction js generalizing items with
  | nil =>
    rw [List.append_nil] at h
    exact .mark .rightBracket rfl rfl rfl h
  | cons v js ih =>
    rw [List.forall_mem_cons] at hjs
    have hafter : Reads (.close v (.array items :: stack)) (itemChars js ++ rest) j :=
      ih hjs.2 (v :: items) (by simpa using h)
    have hvalue := hjs.1 _ _ j (expectsValue_value _) (ends_itemChars js rest) hafter
    simp only [itemChars, List.cons_append, List.append_assoc]
    exact .mark .comma rfl rfl rfl hvalue

theorem readable_array {js : List Json} (hjs : ∀ v ∈ js, Readable v) : Readable (.array js) := by
  intro r rest j hr _ h
  cases js with
  | nil => exact .mark .leftBracket rfl rfl (hr _ (by simp)) (.mark .rightBracket rfl rfl rfl h)
  | cons v js =>
    rw [List.forall_mem_cons] at hjs
    have hafter : Reads (.close v (.array [] :: r.stack)) (itemChars js ++ rest) j :=
      reads_items hjs.2 [v] h
    have hvalue := hjs.1 _ _ j (expectsValue_valueOrEnd _) (ends_itemChars js rest) hafter
    simp only [chars, List.cons_append, List.append_assoc]
    exact .mark .leftBracket rfl rfl (hr _ (by simp)) hvalue

theorem reads_member {members : List (Option String × Json)} {k : Option String} (hv : Readable v)
    (hrest : Ends rest) (hkey : r.step (.string k) = some ⟨stack, .colon members k⟩)
    (h : Reads (.close v (.object members k :: stack)) rest j) :
    Reads r (stringChars k ++ ':' :: (chars v ++ rest)) j := by
  have hvalue := hv _ _ j (expectsValue_value (.object members k :: stack)) hrest h
  have hcolon : Reads ⟨stack, .colon members k⟩ (':' :: (chars v ++ rest)) j :=
    .mark .colon rfl rfl rfl hvalue
  have hcut := token?_stringChars k (':' :: (chars v ++ rest))
  cases k <;> exact .token _ rfl hcut hkey hcolon

theorem reads_members {ms : List (Option String × Json)} (hms : ∀ m ∈ ms, Readable m.2)
    (members : List (Option String × Json)) (k : Option String)
    (h : Reads (.close (.object (members.reverse ++ ms)) stack) rest j) :
    Reads ⟨.object members k :: stack, .more⟩ (memberChars ms ++ rest) j := by
  induction ms generalizing members k with
  | nil =>
    rw [List.append_nil] at h
    exact .mark .rightBrace rfl rfl rfl h
  | cons m ms ih =>
    rw [List.forall_mem_cons] at hms
    have hafter : Reads (.close m.2 (.object members m.1 :: stack)) (memberChars ms ++ rest) j :=
      ih hms.2 (m :: members) none (by simpa using h)
    have hmember : Reads ⟨stack, .key members⟩ _ j :=
      reads_member hms.1 (ends_memberChars ms rest) rfl hafter
    simp only [memberChars, List.cons_append, List.append_assoc]
    exact .mark .comma rfl rfl rfl hmember

theorem readable_object {ms : List (Option String × Json)} (hms : ∀ m ∈ ms, Readable m.2) :
    Readable (.object ms) := by
  intro r rest j hr _ h
  cases ms with
  | nil => exact .mark .leftBrace rfl rfl (hr _ (by simp)) (.mark .rightBrace rfl rfl rfl h)
  | cons m ms =>
    rw [List.forall_mem_cons] at hms
    have hafter : Reads (.close m.2 (.object [] m.1 :: r.stack)) (memberChars ms ++ rest) j :=
      reads_members hms.2 [m] none h
    have hmember : Reads ⟨r.stack, .keyOrEnd⟩ _ j :=
      reads_member hms.1 (ends_memberChars ms rest) rfl hafter
    simp only [chars, List.cons_append, List.append_assoc]
    exact .mark .leftBrace rfl rfl (hr _ (by simp)) hmember

theorem IsWellFormed.readable (h : v.IsWellFormed) : Readable v := by
  induction h with
  | null => exact readable_null
  | bool b => exact readable_bool b
  | number hn => exact readable_number hn
  | string s => exact readable_string s
  | array _ ih => exact readable_array ih
  | object _ ih => exact readable_object ih

/-- A tree is read back from its text. -/
theorem read_write (h : j.IsWellFormed) : read (write j) = some j := by
  refine read_of_reads ?_
  rw [write, String.toList_ofList, ← List.append_nil (chars j)]
  exact h.readable .start [] j (expectsValue_value []) ends_nil (.nil j)

end ClubBooking.Json
