import DatasetPlan.Proofs.Document.Presentation
import DatasetPlan.Yaml.Reader

namespace DatasetPlan.Yaml

theorem eq_of_resolve {text s : String} (h : resolve text = .text s) : s = text := by
  unfold resolve at h
  grind

theorem resolve_of_staysText {s : String} (h : staysText s = true) : resolve s = .text s := by
  unfold staysText at h
  split at h
  · next hresolve => rw [hresolve, eq_of_resolve hresolve]
  · contradiction

theorem not_null_of_resolve {text : String} {found : Found} (h : resolve text = found)
    (hfound : found ≠ .null) : (text.isEmpty || isNullWord text) = false := by
  rw [Bool.eq_false_iff]
  intro hnull
  have hchars : (text.toList.isEmpty || isNullWord text) = true := by
    simpa using hnull
  have hresolve : resolve text = .null := if_pos hchars
  exact hfound (h.symm.trans hresolve)

/-- Whatever is asked of the scalar, it answers as this text. -/
def isText (scalar : Scalar) (s : String) : Bool :=
  scalar.text = s && scalar.tag.isNone && (scalar.spelling ≠ .plain || staysText s)

theorem shows_text {scalar : Scalar} {s : String} (h : isText scalar s = true) :
    dialect.Shows scalar (.text s) := by
  obtain ⟨text, spelling, tag⟩ := scalar
  simp only [isText, Bool.and_eq_true, Bool.or_eq_true, decide_eq_true_eq,
    Option.isNone_iff_eq_none] at h
  obtain ⟨⟨rfl, rfl⟩, hstays⟩ := h
  have hresolve (hplain : spelling = .plain) : resolve text = .text text :=
    resolve_of_staysText (hstays.resolve_left (not_not_intro hplain))
  refine ⟨?look, ?isAbsent, ?text, nofun, nofun, nofun, nofun⟩
  case look =>
    by_cases hplain : spelling = .plain
    · exact congrArg Except.ok ((if_pos hplain).trans (hresolve hplain))
    · exact congrArg Except.ok (if_neg hplain)
  case isAbsent =>
    by_cases hplain : spelling = .plain
    · have hnull := not_null_of_resolve (hresolve hplain) Found.noConfusion
      simp only [dialect, absent, hplain, ne_eq, not_true, if_false, hnull]
      rfl
    · exact if_pos hplain
  case text =>
    rintro _ ⟨⟩ wanted
    rfl

def isPlain (scalar : Scalar) : Bool :=
  scalar.tag.isNone && scalar.spelling = .plain

theorem exists_of_isPlain {scalar : Scalar} (h : isPlain scalar = true) :
    ∃ text, scalar = ⟨text, .plain, none⟩ := by
  obtain ⟨text, spelling, tag⟩ := scalar
  simp only [isPlain, Bool.and_eq_true, decide_eq_true_eq, Option.isNone_iff_eq_none] at h
  obtain ⟨rfl, rfl⟩ := h
  exact ⟨text, rfl⟩

theorem look_of_isPlain {scalar : Scalar} (h : isPlain scalar = true) :
    look scalar = .ok (resolve scalar.text) := by
  obtain ⟨text, rfl⟩ := exists_of_isPlain h
  rfl

theorem isAbsent_of_isPlain {scalar : Scalar} {found : Found} (h : isPlain scalar = true)
    (hresolve : resolve scalar.text = found) (hfound : found ≠ .null) :
    absent scalar = .ok false := by
  obtain ⟨text, rfl⟩ := exists_of_isPlain h
  exact congrArg Except.ok (not_null_of_resolve hresolve hfound)

theorem readAs_of_isPlain {scalar : Scalar} {read? : String → Option β} {x : β}
    (h : isPlain scalar = true) (hread : read? scalar.text = some x) (tag wanted : String) :
    readAs tag read? wanted scalar = .ok x := by
  obtain ⟨text, rfl⟩ := exists_of_isPlain h
  simp only [readAs, decide_true, Bool.true_or, if_true, hread]
  rfl

def isBool (scalar : Scalar) (b : Bool) : Bool :=
  isPlain scalar && bool? scalar.text = some b &&
    match resolve scalar.text with
    | .bool c => c = b
    | _ => false

theorem shows_bool {scalar : Scalar} {b : Bool} (h : isBool scalar b = true) :
    dialect.Shows scalar (.bool b) := by
  simp only [isBool, Bool.and_eq_true, decide_eq_true_eq] at h
  obtain ⟨⟨hplain, hread⟩, hresolved⟩ := h
  have hresolve : resolve scalar.text = .bool b := by
    split at hresolved
    · next hfound => rw [hfound, of_decide_eq_true hresolved]
    · contradiction
  refine ⟨(look_of_isPlain hplain).trans (congrArg Except.ok hresolve),
    isAbsent_of_isPlain hplain hresolve Found.noConfusion, nofun, ?bool, nofun, nofun, nofun⟩
  case bool =>
    rintro _ ⟨⟩
    exact readAs_of_isPlain hplain hread "bool" "a boolean"

def isInt (scalar : Scalar) (n : Int) : Bool :=
  isPlain scalar &&
    (!Width.isUnsigned 64 n || natural? (Width.span 64) scalar.text.toList = some n.toNat) &&
    (!Width.isSigned 64 n ||
      integer? (Width.signedBound 64) (Width.signedBound 64) scalar.text.toList = some n) &&
    match resolve scalar.text with
    | .int m => m = n
    | _ => false

theorem shows_int {scalar : Scalar} {n : Int} (h : isInt scalar n = true) :
    dialect.Shows scalar (.int n) := by
  simp only [isInt, Bool.and_eq_true, Bool.or_eq_true, Bool.not_eq_true', decide_eq_true_eq] at h
  obtain ⟨⟨⟨hplain, hnatural⟩, hinteger⟩, hresolved⟩ := h
  have hresolve : resolve scalar.text = .int n := by
    split at hresolved
    · next hfound => rw [hfound, of_decide_eq_true hresolved]
    · contradiction
  refine ⟨(look_of_isPlain hplain).trans (congrArg Except.ok hresolve),
    isAbsent_of_isPlain hplain hresolve Found.noConfusion, nofun, nofun, ?nat, ?int, nofun⟩
  case nat =>
    rintro _ ⟨⟩ hwidth
    rw [hwidth] at hnatural
    have hread := hnatural.resolve_left Bool.noConfusion
    change readAs "int" (fun text => natural? (Width.span 64) text.toList) "usize" scalar = _
    exact readAs_of_isPlain hplain hread "int" "usize"
  case int =>
    rintro _ ⟨⟩ hwidth
    rw [hwidth] at hinteger
    have hread := congrArg (Option.map Int64.ofInt) (hinteger.resolve_left Bool.noConfusion)
    change readAs "int" (fun text => (integer? (Width.signedBound 64) (Width.signedBound 64)
      text.toList).map Int64.ofInt) "i64" scalar = _
    exact readAs_of_isPlain hplain hread "int" "i64"

mutual

/-- Whether the node can be seen to hold the value, without doubles or nulls. -/
def seems : Value → Tree Scalar → Bool
  | .bool b, .leaf scalar => isBool scalar b
  | .int n, .leaf scalar => isInt scalar n
  | .text s, .leaf scalar => isText scalar s
  | .list items, .list nodes => itemsSeem items nodes
  | .dict entries, .dict nodes => entriesSeem entries nodes
  | _, _ => false

def itemsSeem : List Value → List (Tree Scalar) → Bool
  | [], [] => true
  | value :: rest, node :: nodes => seems value node && itemsSeem rest nodes
  | _, _ => false

def entriesSeem : List (String × Value) → List (Tree Scalar × Tree Scalar) → Bool
  | [], [] => true
  | (key, value) :: rest, (.leaf scalar, node) :: nodes =>
      isText scalar key && seems value node && entriesSeem rest nodes
  | _, _ => false

end

mutual

theorem presents_of_seems : (value : Value) → (node : Tree Scalar) → seems value node = true →
    dialect.Presents node value
  | .bool _, .leaf _, h => .bool (shows_bool h)
  | .int _, .leaf _, h => .int (shows_int h)
  | .text _, .leaf _, h => .text (shows_text h)
  | .list items, .list nodes, h => .list (presents_of_itemsSeem items nodes h)
  | .dict entries, .dict nodes, h => by
      obtain ⟨hkeys, hvalues⟩ := presents_of_entriesSeem entries nodes h
      exact .dict hkeys hvalues

theorem presents_of_itemsSeem : (items : List Value) → (nodes : List (Tree Scalar)) →
    itemsSeem items nodes = true → List.Forall₂ dialect.Presents nodes items
  | [], [], _ => .nil
  | value :: rest, node :: nodes, h => by
      obtain ⟨hvalue, hrest⟩ := Bool.and_eq_true_iff.mp h
      exact .cons (presents_of_seems value node hvalue) (presents_of_itemsSeem rest nodes hrest)

theorem presents_of_entriesSeem : (entries : List (String × Value)) →
    (nodes : List (Tree Scalar × Tree Scalar)) → entriesSeem entries nodes = true →
      List.Forall₂ (fun node entry => ∃ leaf, node.1 = .leaf leaf ∧
        dialect.Shows leaf (.text entry.1)) nodes entries ∧
      List.Forall₂ (fun node entry => dialect.Presents node.2 entry.2) nodes entries
  | [], [], _ => ⟨.nil, .nil⟩
  | (key, value) :: rest, (.leaf scalar, node) :: nodes, h => by
      obtain ⟨hfirst, hrest⟩ := Bool.and_eq_true_iff.mp h
      obtain ⟨hkey, hvalue⟩ := Bool.and_eq_true_iff.mp hfirst
      obtain ⟨hkeys, hvalues⟩ := presents_of_entriesSeem rest nodes hrest
      exact ⟨.cons ⟨scalar, rfl, shows_text hkey⟩ hkeys,
        .cons (presents_of_seems value node hvalue) hvalues⟩

end

theorem holds_of_seems {document : Document Scalar} {value : Value}
    (h : (document.whole && seems value document.root) = true) :
    document.Holds dialect value := by
  obtain ⟨hwhole, hroot⟩ := Bool.and_eq_true_iff.mp h
  exact ⟨hwhole, presents_of_seems value document.root hroot⟩

end DatasetPlan.Yaml
