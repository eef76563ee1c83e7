import DatasetPlan.Json.Reader
import DatasetPlan.Proofs.Document.Presentation
import DatasetPlan.Proofs.Json.Token

namespace DatasetPlan.Json

open DatasetPlan.Tree (Event Frame Shape ofEvents ofEventsFrom)

/-! The tokens of a value. -/

mutual

def tokens : Value → List Token
  | .null => [.scalar (some .null)]
  | .bool b => [.scalar (some (.bool b))]
  | .int n => [.scalar (some (.int n))]
  | .float x => [.scalar (some (.float x))]
  | .text s => [.text (some s)]
  | .list items => .enter .list :: ([.comma].intercalate (itemTokens items) ++ [.leave .list])
  | .dict entries =>
      .enter .dict :: ([.comma].intercalate (entryTokens entries) ++ [.leave .dict])

def itemTokens : List Value → List (List Token)
  | [] => []
  | value :: rest => tokens value :: itemTokens rest

def entryTokens : List (String × Value) → List (List Token)
  | [] => []
  | (key, value) :: rest => (.text (some key) :: .colon :: tokens value) :: entryTokens rest

end

mutual

def isExact : Value → Bool
  | .int n => Width.isSigned 64 n || Width.isUnsigned 64 n
  | .float _ => false
  | .list items => itemsAreExact items
  | .dict entries => entriesAreExact entries
  | _ => true

def itemsAreExact : List Value → Bool
  | [] => true
  | value :: rest => isExact value && itemsAreExact rest

def entriesAreExact : List (String × Value) → Bool
  | [] => true
  | (_, value) :: rest => isExact value && entriesAreExact rest

end

theorem itemsAreExact_iff {items : List Value} :
    itemsAreExact items = true ↔ ∀ item ∈ items, isExact item = true := by
  induction items with
  | nil => simp [itemsAreExact]
  | cons item rest ih => rw [itemsAreExact, Bool.and_eq_true, ih, List.forall_mem_cons]

theorem entriesAreExact_iff {entries : List (String × Value)} :
    entriesAreExact entries = true ↔ ∀ entry ∈ entries, isExact entry.2 = true := by
  induction entries with
  | nil => simp [entriesAreExact]
  | cons entry rest ih => rw [entriesAreExact, Bool.and_eq_true, ih, List.forall_mem_cons]

theorem spells_null : Spells "null".toList [.scalar (some .null)] :=
  .of_next? (fun _ _ => rfl) (by decide)

theorem spells_bool (b : Bool) : Spells (toString b).toList [.scalar (some (.bool b))] := by
  cases b with
  | false => exact .of_next? (fun _ _ => rfl) (by decide)
  | true => exact .of_next? (fun _ _ => rfl) (by decide)

theorem areBlank_lineStart (indent : Nat) : AreBlank (lineStart indent) := by
  intro c hc
  rcases List.mem_cons.mp hc with rfl | hspace
  · rfl
  · rw [(List.mem_replicate.mp hspace).2]
    rfl

theorem spells_bracketed {opening closing : Char} {shape : Shape} {parts : List (List Char)}
    {lists : List (List Token)} (indent : Nat)
    (hopening : ∀ rest, Token.next? (opening :: rest) = some (.enter shape, rest))
    (hclosing : ∀ rest, Token.next? (closing :: rest) = some (.leave shape, rest))
    (hends : continuesNumber closing = false) (hparts : List.Forall₂ Spells parts lists) :
    Spells (bracketed opening closing indent parts)
      (.enter shape :: ([.comma].intercalate lists ++ [.leave shape])) := by
  cases hparts with
  | nil => exact (Spells.nil.cons hclosing).cons hopening
  | cons hfirst hrest =>
      have hblank := areBlank_lineStart
      have hspells := Spells.enclosed hopening hclosing hends (hblank (indent + 2))
        (hblank (indent + 2)) (hblank indent) (.cons hfirst hrest)
      simpa [bracketed] using hspells

mutual

theorem spells_pretty (indent : Nat) : (value : Value) → isExact value = true →
    Spells (prettyChars indent value) (tokens value)
  | .null, _ => spells_null
  | .bool b, _ => spells_bool b
  | .int _, h => spells_int h
  | .text s, _ => spells_quoted s
  | .list items, h =>
      spells_bracketed indent (fun _ => rfl) (fun _ => rfl) rfl
        (spells_prettyItems (indent + 2) items h)
  | .dict entries, h =>
      spells_bracketed indent (fun _ => rfl) (fun _ => rfl) rfl
        (spells_prettyEntries (indent + 2) entries h)

theorem spells_prettyItems (indent : Nat) : (items : List Value) → itemsAreExact items = true →
    List.Forall₂ Spells (prettyItems indent items) (itemTokens items)
  | [], _ => .nil
  | value :: rest, h => by
      obtain ⟨hvalue, hrest⟩ := Bool.and_eq_true_iff.mp h
      exact .cons (spells_pretty indent value hvalue) (spells_prettyItems indent rest hrest)

theorem spells_prettyEntries (indent : Nat) : (entries : List (String × Value)) →
    entriesAreExact entries = true →
      List.Forall₂ Spells (prettyEntries indent entries) (entryTokens entries)
  | [], _ => .nil
  | (key, value) :: rest, h => by
      obtain ⟨hvalue, hrest⟩ := Bool.and_eq_true_iff.mp h
      have hspace : AreBlank [' '] := by simp [AreBlank, isBlank]
      have hspells : Spells (':' :: ' ' :: prettyChars indent value) (.colon :: tokens value) :=
        ((spells_pretty indent value hvalue).after_blanks hspace).cons fun _ => rfl
      have hentry := (spells_quoted key).append hspells (by rintro _ ⟨⟩; rfl)
      exact .cons hentry (spells_prettyEntries indent rest hrest)

end

/-! Reading the tokens. -/

def Token.events : Token → List (Event Leaf)
  | text value => [leaf (value.map .text)]
  | scalar value => [leaf value]
  | enter shape => [.enter [] shape]
  | leave _ => [.leave]
  | _ => []

/-- The tokens may stand here, and `s'` is what is reached through them. -/
def State.Passes (s : State) (tokens : List Token) (s' : State) : Prop :=
  ∀ rest, s.run (tokens ++ rest) = (tokens.flatMap Token.events ++ (s'.run rest).1, (s'.run rest).2)

namespace State.Passes

variable {s s' s'' : State} {first later : List Token} {token : Token}

theorem trans (h : s.Passes first s') (h' : s'.Passes later s'') :
    s.Passes (first ++ later) s'' := by
  intro rest
  rw [List.append_assoc, h, h', List.flatMap_append, List.append_assoc]

theorem of_step (h : s.step token = some (token.events, s')) : s.Passes [token] s' := by
  intro rest
  rw [List.singleton_append, run, h]
  simp

theorem cons (h : s.step token = some (token.events, s')) (h' : s'.Passes later s'') :
    s.Passes (token :: later) s'' :=
  (of_step h).trans h'

end State.Passes

def Expected.IsValue (expected : Expected) : Prop :=
  expected = .value ∨ expected = .valueOrEnd

def Expected.IsKey (expected : Expected) : Prop :=
  expected = .key ∨ expected = .keyOrEnd

theorem step_enter {expected : Expected} (he : expected.IsValue) (opened : List Shape) :
    State.step ⟨expected, opened⟩ (.enter .list) =
        some ([.enter [] .list], ⟨.valueOrEnd, .list :: opened⟩) ∧
      State.step ⟨expected, opened⟩ (.enter .dict) =
        some ([.enter [] .dict], ⟨.keyOrEnd, .dict :: opened⟩) := by
  rcases he with rfl | rfl <;> exact ⟨rfl, rfl⟩

theorem passes_list {expected : Expected} (he : expected.IsValue) (opened : List Shape)
    {items : List Value} (h : items ≠ [] → State.Passes ⟨.valueOrEnd, .list :: opened⟩
      ([.comma].intercalate (itemTokens items)) ⟨.commaOrEnd, .list :: opened⟩) :
    State.Passes ⟨expected, opened⟩ (tokens (.list items)) ⟨afterValue opened, opened⟩ := by
  refine .cons (step_enter he opened).1 ?_
  cases items with
  | nil => exact .of_step rfl
  | cons item rest => exact (h (List.cons_ne_nil _ _)).trans (.of_step rfl)

theorem passes_dict {expected : Expected} (he : expected.IsValue) (opened : List Shape)
    {entries : List (String × Value)} (h : entries ≠ [] → State.Passes ⟨.keyOrEnd, .dict :: opened⟩
      ([.comma].intercalate (entryTokens entries)) ⟨.commaOrEnd, .dict :: opened⟩) :
    State.Passes ⟨expected, opened⟩ (tokens (.dict entries)) ⟨afterValue opened, opened⟩ := by
  refine .cons (step_enter he opened).2 ?_
  cases entries with
  | nil => exact .of_step rfl
  | cons entry rest => exact (h (List.cons_ne_nil _ _)).trans (.of_step rfl)

theorem passes_entry {expected : Expected} (he : expected.IsKey) (opened : List Shape)
    (key : String) {value : List Token} {s : State}
    (h : State.Passes ⟨.value, .dict :: opened⟩ value s) :
    State.Passes ⟨expected, .dict :: opened⟩ (.text (some key) :: .colon :: value) s := by
  rcases he with rfl | rfl <;> exact .cons rfl (.cons rfl h)

mutual

theorem passes_tokens : (value : Value) → ∀ {expected : Expected}, expected.IsValue →
    ∀ opened, State.Passes ⟨expected, opened⟩ (tokens value) ⟨afterValue opened, opened⟩
  | .null, _, he, _ | .bool _, _, he, _ | .int _, _, he, _ | .float _, _, he, _
  | .text _, _, he, _ => by
      rcases he with rfl | rfl <;> exact .of_step rfl
  | .list items, _, he, opened =>
      passes_list he opened fun h => passes_items items h (.inr rfl) opened
  | .dict entries, _, he, opened =>
      passes_dict he opened fun h => passes_entries entries h (.inr rfl) opened

theorem passes_items : (items : List Value) → items ≠ [] → ∀ {expected : Expected},
    expected.IsValue → ∀ opened,
      State.Passes ⟨expected, .list :: opened⟩ ([.comma].intercalate (itemTokens items))
        ⟨.commaOrEnd, .list :: opened⟩
  | [], h, _, _, _ => absurd rfl h
  | [item], _, _, he, opened => by
      rw [itemTokens, itemTokens, List.intercalate_singleton]
      exact passes_tokens item he (.list :: opened)
  | item :: next :: rest, _, _, he, opened => by
      have hrest := passes_items (next :: rest) (List.cons_ne_nil _ _) (.inl rfl) opened
      rw [itemTokens, itemTokens, List.intercalate_cons_cons, List.append_assoc]
      exact (passes_tokens item he (.list :: opened)).trans (.cons rfl hrest)

theorem passes_entries : (entries : List (String × Value)) → entries ≠ [] →
    ∀ {expected : Expected}, expected.IsKey → ∀ opened,
      State.Passes ⟨expected, .dict :: opened⟩ ([.comma].intercalate (entryTokens entries))
        ⟨.commaOrEnd, .dict :: opened⟩
  | [], h, _, _, _ => absurd rfl h
  | [(key, value)], _, _, he, opened => by
      rw [entryTokens, entryTokens, List.intercalate_singleton]
      exact passes_entry he opened key (passes_tokens value (.inl rfl) (.dict :: opened))
  | (key, value) :: (nextKey, next) :: rest, _, _, he, opened => by
      have hvalue := passes_tokens value (.inl rfl) (.dict :: opened)
      have hrest := passes_entries ((nextKey, next) :: rest) (List.cons_ne_nil _ _) (.inl rfl) opened
      rw [entryTokens, entryTokens, List.intercalate_cons_cons, List.append_assoc]
      exact passes_entry he opened key (hvalue.trans (.cons rfl hrest))

end

/-! The tree that comes of it. -/

theorem events_intercalate (lists : List (List Token)) :
    ([.comma].intercalate lists).flatMap Token.events = lists.flatten.flatMap Token.events := by
  induction lists with
  | nil => rfl
  | cons first lists ih =>
      cases lists with
      | nil => simp
      | cons second lists =>
          rw [List.intercalate_cons_cons, List.flatMap_append, ih, List.flatMap_append,
            List.flatten_cons, List.flatMap_append]
          simp [Token.events]

/-- The node is put into the innermost frame, or is all there is. -/
def placed (node : Tree Leaf) (rest : List (Event Leaf)) : List (Frame Leaf) → Tree Leaf
  | [] => node
  | f :: frames => ofEventsFrom ({ f with items := node :: f.items } :: frames) rest

theorem ofEventsFrom_leaf (value : Leaf) (frames : List (Frame Leaf)) (rest : List (Event Leaf)) :
    ofEventsFrom frames (leaf value :: rest) = placed (.leaf value) rest frames := by
  cases frames <;> rfl

theorem ofEventsFrom_enter {shape : Shape} {inner : List Token} (items : List (Tree Leaf))
    {frames : List (Frame Leaf)} {rest : List (Event Leaf)}
    (h : ofEventsFrom (⟨[], shape, []⟩ :: frames) (inner.flatMap Token.events ++ .leave :: rest) =
      ofEventsFrom (⟨[], shape, items.reverse⟩ :: frames) (.leave :: rest)) :
    ofEventsFrom frames
        ((.enter shape :: (inner ++ [.leave shape]) : List Token).flatMap Token.events ++ rest) =
      placed (Frame.node ⟨[], shape, items.reverse⟩) rest frames := by
  have hevents : (.enter shape :: (inner ++ [.leave shape]) : List Token).flatMap Token.events ++
      rest = .enter [] shape :: (inner.flatMap Token.events ++ .leave :: rest) := by
    simp [Token.events]
  rw [hevents, ofEventsFrom, h]
  cases frames <;> rfl

def inTurn (entries : List (Tree Leaf × Tree Leaf)) : List (Tree Leaf) :=
  entries.flatMap fun entry => [entry.1, entry.2]

theorem pairUp_inTurn (entries : List (Tree Leaf × Tree Leaf)) :
    Tree.pairUp (inTurn entries) = entries := by
  induction entries with
  | nil => rfl
  | cons entry entries ih => exact congrArg (entry :: ·) ih

mutual

theorem ofEventsFrom_tokens : (value : Value) → ∀ frames rest,
    ofEventsFrom frames ((tokens value).flatMap Token.events ++ rest) =
      placed (value.treeOf some) rest frames
  | .null, frames, rest | .bool _, frames, rest | .int _, frames, rest | .float _, frames, rest
  | .text _, frames, rest => ofEventsFrom_leaf _ frames rest
  | .list items, frames, rest => by
      rw [tokens, ofEventsFrom_enter (Value.treesOf some items)]
      · simp [Frame.node, Tree.mark, Value.treeOf]
      · rw [events_intercalate, ofEventsFrom_items items, List.append_nil]
  | .dict entries, frames, rest => by
      -- Until a dictionary is left, its keys and values stand in one row.
      rw [tokens, ofEventsFrom_enter (inTurn (Value.entryTreesOf some entries))]
      · simp [Frame.node, Tree.mark, Value.treeOf, pairUp_inTurn]
      · rw [events_intercalate, ofEventsFrom_entries entries, List.append_nil]

theorem ofEventsFrom_items : (items : List Value) → ∀ f frames rest,
    ofEventsFrom (f :: frames) ((itemTokens items).flatten.flatMap Token.events ++ rest) =
      ofEventsFrom ({ f with items := (Value.treesOf some items).reverse ++ f.items } :: frames)
        rest
  | [], _, _, _ => rfl
  | item :: items, f, frames, rest => by
      rw [itemTokens, List.flatten_cons, List.flatMap_append, List.append_assoc,
        ofEventsFrom_tokens item, placed, ofEventsFrom_items items]
      simp [Value.treesOf]

theorem ofEventsFrom_entries : (entries : List (String × Value)) → ∀ f frames rest,
    ofEventsFrom (f :: frames) ((entryTokens entries).flatten.flatMap Token.events ++ rest) =
      ofEventsFrom
        ({ f with items := (inTurn (Value.entryTreesOf some entries)).reverse ++ f.items } :: frames)
        rest
  | [], _, _, _ => rfl
  | (key, value) :: entries, f, frames, rest => by
      have hkey : (Token.text (some key) :: .colon :: tokens value).flatMap Token.events =
          leaf (some (.text key)) :: (tokens value).flatMap Token.events := rfl
      rw [entryTokens, List.flatten_cons, List.flatMap_append, hkey, List.append_assoc,
        List.cons_append, ofEventsFrom_leaf, placed, ofEventsFrom_tokens value, placed,
        ofEventsFrom_entries entries]
      simp [Value.entryTreesOf, inTurn]

end

/-! Whole documents. -/

deriving instance DecidableEq for Found
deriving instance DecidableEq for Token

/-- A text of the value's tokens is a document that holds it. -/
theorem holds_of_scanFrom {cs : List Char} {value : Value}
    (h : Token.scanFrom cs.length cs = tokens value) :
    (document (String.ofList cs)).Holds dialect value := by
  have hscan : Token.scan (String.ofList cs) = tokens value := by
    rw [Token.scan, String.toList_ofList, h]
  have hrun : State.start.run (tokens value) = ((tokens value).flatMap Token.events, true) := by
    have hpasses := passes_tokens value (.inl rfl) [] []
    rw [List.append_nil] at hpasses
    rw [State.start, hpasses, afterValue, State.run, List.append_nil]
  have htree : ofEvents ((tokens value).flatMap Token.events) = value.treeOf some := by
    have hplaced := ofEventsFrom_tokens value [] []
    rwa [List.append_nil] at hplaced
  have hshows (found : Found) : dialect.Shows (some found) found := Dialect.plain_shows rfl
  simp only [document, hscan, hrun, htree]
  exact ⟨rfl, Dialect.presents_treeOf hshows value⟩

theorem holds_pretty {value : Value} (h : isExact value = true) :
    (document (pretty value)).Holds dialect value :=
  holds_of_scanFrom (spells_pretty 0 value h).scanFrom_eq

end DatasetPlan.Json
