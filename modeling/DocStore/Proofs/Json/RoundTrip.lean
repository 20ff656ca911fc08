import DocStore.Proofs.Json.Canonical
import DocStore.Proofs.Json.Tokens

/-! # Written JSON reads back

The builder makes a node of the tokens of the node, whatever containers are open around it, so a
text reads back as the node it was written from. The node of a canonical value stands for that
value, which makes the value readable from its text as long as it is not nested too deep. -/
set_option autoImplicit false

namespace DocStore

namespace Node

/-! ## Tokens built -/

namespace Builder

theorem run_cons {b next : Builder} {t : JsonToken} (h : step b t = some next)
    (ts : List JsonToken) : run b (t :: ts) = run next ts := by
  rw [run, h, Option.bind_some]

theorem run_item {t : JsonToken} (h : t ≠ .mark ']') (stack : List Frame) (ts : List JsonToken) :
    run (.item stack) (t :: ts) = run (.value (.array [] :: stack)) (t :: ts) := by
  have same : step (.item stack) t = step (.value (.array [] :: stack)) t := by
    rw [step, step]
    exact h
  rw [run, same, run]

end Builder

open Builder (run run_cons)

/-- The first token of a node never closes an array. -/
theorem tokens_eq_cons (n : Node) : ∃ t ts, n.tokens = t :: ts ∧ t ≠ .mark ']' := by
  unfold tokens
  split
  all_goals exact ⟨_, _, rfl, by simp⟩

theorem step_number {literal : String} {l : NumberLiteral}
    (h : NumberLiteral.read? literal.toList = some l) (stack : List Frame) :
    Builder.step (.value stack) (.number literal) = some (.after (.number literal) stack) := by
  rw [Builder.step, Builder.begin?, h]
  rfl

mutual

/-- The tokens of a node build the node, whatever is open around it. -/
theorem run_tokens : (n : Node) → Written n → (stack : List Frame) → (ts : List JsonToken) →
    run (.value stack) (n.tokens ++ ts) = run (.after n stack) ts
  | .null, _, _, ts => run_cons rfl ts
  | .bool true, _, _, ts => run_cons rfl ts
  | .bool false, _, _, ts => run_cons rfl ts
  | .number _, .number h, stack, ts => run_cons (step_number h stack) ts
  | .string _, _, _, ts => run_cons rfl ts
  | .array [], _, stack, ts => by
    have opened : Builder.step (.value stack) (.mark '[') = some (.item stack) := rfl
    have closed : Builder.step (.item stack) (.mark ']') = some (.after (.array []) stack) := rfl
    exact (run_cons opened _).trans (run_cons closed ts)
  | .array (item :: items), .array h, stack, ts => by
    obtain ⟨hi, his⟩ := List.forall_mem_cons.mp h
    obtain ⟨t, more, split, other⟩ := tokens_eq_cons item
    have opened : Builder.step (.value stack) (.mark '[') = some (.item stack) := rfl
    have first := run_tokens item hi (.array [] :: stack) (tokensItems items ++ ts)
    rw [tokens, List.cons_append, List.cons_append, run_cons opened, List.append_assoc]
    rw [split, List.cons_append] at first ⊢
    rw [Builder.run_item other, first]
    exact run_tokensItems items his item [] stack ts
  | .object [], _, stack, ts => by
    have opened : Builder.step (.value stack) (.mark '\x7b') = some (.firstKey stack) := rfl
    have closed : Builder.step (.firstKey stack) (.mark '\x7d') =
      some (.after (.object []) stack) := rfl
    exact (run_cons opened _).trans (run_cons closed ts)
  | .object ((key, value) :: members), .object h, stack, ts => by
    obtain ⟨hv, hms⟩ := List.forall_mem_cons.mp h
    have opened : Builder.step (.value stack) (.mark '\x7b') = some (.firstKey stack) := rfl
    have named : Builder.step (.firstKey stack) (.string key) = some (.colon [] key stack) := rfl
    have colon : Builder.step (.colon [] key stack) (.mark ':') =
      some (.value (.object [] key :: stack)) := rfl
    simp only [tokens, List.cons_append, List.append_assoc]
    rw [run_cons opened, run_cons named, run_cons colon, run_tokens value hv]
    exact run_tokensMembers members hms key value [] stack ts

theorem run_tokensItems : (items : List Node) → (∀ item ∈ items, Written item) → (node : Node) →
    (read : List Node) → (stack : List Frame) → (ts : List JsonToken) →
    run (.after node (.array read :: stack)) (tokensItems items ++ ts) =
      run (.after (.array ((node :: read).reverse ++ items)) stack) ts
  | [], _, node, read, stack, ts => by
    have closed : Builder.step (.after node (.array read :: stack)) (.mark ']') =
      some (.after (.array (node :: read).reverse) stack) := rfl
    rw [List.append_nil]
    exact run_cons closed ts
  | item :: items, h, node, read, stack, ts => by
    obtain ⟨hi, his⟩ := List.forall_mem_cons.mp h
    have comma : Builder.step (.after node (.array read :: stack)) (.mark ',') =
      some (.value (.array (node :: read) :: stack)) := rfl
    simp only [tokensItems, List.cons_append, List.append_assoc]
    rw [run_cons comma, run_tokens item hi, run_tokensItems items his, List.reverse_cons,
      List.append_assoc]
    rfl

theorem run_tokensMembers : (members : List (String × Node)) → (∀ m ∈ members, Written m.2) →
    (key : String) → (node : Node) → (read : List (String × Node)) → (stack : List Frame) →
    (ts : List JsonToken) →
    run (.after node (.object read key :: stack)) (tokensMembers members ++ ts) =
      run (.after (.object (((key, node) :: read).reverse ++ members)) stack) ts
  | [], _, key, node, read, stack, ts => by
    have closed : Builder.step (.after node (.object read key :: stack)) (.mark '\x7d') =
      some (.after (.object ((key, node) :: read).reverse) stack) := rfl
    rw [List.append_nil]
    exact run_cons closed ts
  | (k, value) :: members, h, key, node, read, stack, ts => by
    obtain ⟨hv, hms⟩ := List.forall_mem_cons.mp h
    have comma : Builder.step (.after node (.object read key :: stack)) (.mark ',') =
      some (.key ((key, node) :: read) stack) := rfl
    have named : Builder.step (.key ((key, node) :: read) stack) (.string k) =
      some (.colon ((key, node) :: read) k stack) := rfl
    have colon : Builder.step (.colon ((key, node) :: read) k stack) (.mark ':') =
      some (.value (.object ((key, node) :: read) k :: stack)) := rfl
    simp only [tokensMembers, List.cons_append, List.append_assoc]
    rw [run_cons comma, run_cons named, run_cons colon, run_tokens value hv,
      run_tokensMembers members hms, List.reverse_cons, List.append_assoc]
    rfl

end

/-- The text of a node reads back as the node. -/
theorem read?_text {n : Node} (h : Written n) : read? n.text = some n := by
  have tokens : JsonToken.scan .between n.text.toList = some n.tokens := by
    have scans := scans_chars n h [] fun c hc => by cases hc
    rw [JsonToken.Scans, List.append_nil] at scans
    rw [text, String.toList_ofList, scans, JsonToken.scan, JsonToken.finish, Option.map_some,
      List.append_nil]
  have built := run_tokens n h [] []
  rw [List.append_nil] at built
  rw [read?, tokens, Option.bind_eq_bind, Option.bind_some, built]
  rfl

/-! ## Nodes of values -/

mutual

theorem written_ofJson : (j : Json) → Written (ofJson j)
  | .null => .null
  | .bool b => .bool b
  | .number n => .number (by rw [String.toList_ofList, n.read?_chars.1])
  | .string s => .string s
  | .array items => .array (written_ofItems items)
  | .object members => .object (written_ofMembers members)

theorem written_ofItems : (items : List Json) → ∀ item ∈ ofItems items, Written item
  | [] => fun item mem => by cases mem
  | item :: items => List.forall_mem_cons.mpr ⟨written_ofJson item, written_ofItems items⟩

theorem written_ofMembers : (members : List (String × Json)) →
    ∀ m ∈ ofMembers members, Written m.2
  | [] => fun m mem => by cases mem
  | (_, value) :: members =>
    List.forall_mem_cons.mpr ⟨written_ofJson value, written_ofMembers members⟩

end

theorem ofItems_eq_map (items : List Json) : ofItems items = items.map ofJson := by
  induction items with
  | nil => rfl
  | cons item items ih => rw [ofItems, ih, List.map_cons]

theorem ofMembers_eq_map (members : List (String × Json)) :
    ofMembers members = members.map fun m => (m.1, ofJson m.2) := by
  induction members with
  | nil => rfl
  | cons m members ih => rw [ofMembers, ih, List.map_cons]

theorem nestingItems_le_iff {k : Nat} {items : List Node} :
    nestingItems items ≤ k ↔ ∀ item ∈ items, item.nesting ≤ k := by
  induction items with
  | nil => simp [nestingItems]
  | cons item items ih => rw [nestingItems, max_le_iff, ih, List.forall_mem_cons]

theorem nestingMembers_le_iff {k : Nat} {members : List (String × Node)} :
    nestingMembers members ≤ k ↔ ∀ m ∈ members, m.2.nesting ≤ k := by
  induction members with
  | nil => simp [nestingMembers]
  | cons m members ih => rw [nestingMembers, max_le_iff, ih, List.forall_mem_cons]

/-- A value opens at most as many brackets as it has levels. -/
theorem nesting_le_of_fits {n : Nat} {j : Json} (h : Json.Fits n j) : (ofJson j).nesting ≤ n := by
  induction n generalizing j with
  | zero => exact h.elim
  | succ n ih =>
    cases j with
    | array items =>
      rw [ofJson, ofItems_eq_map]
      refine Nat.succ_le_succ (nestingItems_le_iff.mpr (List.forall_mem_map.mpr ?_))
      exact fun item mem => ih (h item mem)
    | object members =>
      rw [ofJson, ofMembers_eq_map]
      refine Nat.succ_le_succ (nestingMembers_le_iff.mpr (List.forall_mem_map.mpr ?_))
      exact fun m mem => ih (h.2 m mem)
    | null => exact Nat.zero_le _
    | bool b => exact Nat.zero_le _
    | number l => exact Nat.zero_le _
    | string s => exact Nat.zero_le _

theorem toItems?_ofItems {items : List Json}
    (h : ∀ item ∈ items, (ofJson item).toJson? = some item) :
    toItems? (ofItems items) = some items := by
  induction items with
  | nil => rfl
  | cons item items ih =>
    obtain ⟨hi, his⟩ := List.forall_mem_cons.mp h
    rw [ofItems, toItems?, hi, ih his]
    rfl

theorem toMembers?_ofMembers {members : List (String × Json)}
    (h : ∀ m ∈ members, (ofJson m.2).toJson? = some m.2) :
    toMembers? (ofMembers members) = some members := by
  induction members with
  | nil => rfl
  | cons m members ih =>
    obtain ⟨hm, hms⟩ := List.forall_mem_cons.mp h
    rw [ofMembers, toMembers?, hm, ih hms]
    rfl

/-- The node of a canonical value stands for that value. -/
theorem toJson?_ofJson {n : Nat} {j : Json} (h : Json.Fits n j) : (ofJson j).toJson? = some j := by
  induction n generalizing j with
  | zero => exact h.elim
  | succ n ih =>
    cases j with
    | array items =>
      rw [ofJson, toJson?, toItems?_ofItems fun item mem => ih (h item mem)]
      rfl
    | object members =>
      rw [ofJson, toJson?, toMembers?_ofMembers fun m mem => ih (h.2 m mem), Option.map_some,
        Json.ofMembers, h.1.sortMembers_eq]
    | number l =>
      obtain ⟨read, value⟩ := l.read?_chars
      rw [ofJson, toJson?, String.toList_ofList, read, Option.bind_eq_bind, Option.bind_some, value]
      rfl
    | null => rfl
    | bool b => rfl
    | string s => rfl

end Node

/-- A canonical value reads back from its text, if it is not nested too deep. -/
theorem Json.Fits.read?_text {n : Nat} {j : Json} (h : Json.Fits n j)
    (shallow : n ≤ Json.maxReadNesting) : Json.read? j.text = some j := by
  have node := Node.read?_text (Node.written_ofJson j)
  have nesting := (Node.nesting_le_of_fits h).trans shallow
  rw [Json.read?, Json.text, node, Option.bind_eq_bind, Option.bind_some, guard, if_pos nesting]
  exact Node.toJson?_ofJson h

end DocStore
