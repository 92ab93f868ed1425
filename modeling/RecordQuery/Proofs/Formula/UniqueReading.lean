import RecordQuery.Proofs.Formula.Preorder
import RecordQuery.Proofs.Number.Numeral

/-!
# Formulas Are Read in One Way

A formula text leaves no doubt about the expression it comes from, as long as nothing in it
can be mistaken for the end of what it stands in: no text literal holds a quote, no field a
closing brace, and no formula is filled in as it is. The first character of an expression
tells its kind, and every kind shows where it ends: a field, a text, a comparison and a call
by what closes them, a number by what may follow it.

## Main results

* `Expr.written_append_inj` — where one text starts with two expressions, these are alike and
  end at one place;
* `Expr.compile_unambiguous` — expressions that compile to one text without a warning are
  alike.
-/

namespace RecordQuery

/-! ### Likeness -/

/-- Whether two literals are alike: equal texts, or numbers written alike, integers then being
equal and floats equal as numbers. -/
def Literal.Alike : Literal → Literal → Prop
  | .text s, .text t => s = t
  | .integer m, .integer n => m = n
  | .integer m, .float y => (Literal.integer m).written = (Literal.float y).written
  | .float x, .integer n => (Literal.float x).written = (Literal.integer n).written
  | .float x, .float y =>
    (Literal.float x).written = (Literal.float y).written ∧ x.same y = true
  | _, _ => False

namespace Expr

mutual

/-- Whether two expressions are alike: nodes of one kind everywhere, with fields of one name,
literals that are alike, the same comparisons, and the same functions of as many arguments. -/
def Alike : Expr → Expr → Prop
  | .field f, .field g => f.remoteName = g.remoteName
  | .literal a, .literal b => a.Alike b
  | .compare lhs op rhs, .compare lhs' op' rhs' =>
    Alike lhs lhs' ∧ op = op' ∧ Alike rhs rhs'
  | .call fn args, .call fn' args' => fn = fn' ∧ AlikeAll args args'
  | _, _ => False

/-- Whether arguments are alike one by one, and as many. -/
def AlikeAll : List Expr → List Expr → Prop
  | [], [] => True
  | a :: as, b :: bs => Alike a b ∧ AlikeAll as bs
  | _, _ => False

end

/-- Whether nothing in a node by itself can be mistaken for the end of something. -/
def Clear : Expr → Prop
  | .field f => '\x7d' ∉ f.remoteName.toList
  | .literal (.text value) => '\'' ∉ value.toList
  | .literal (.integer _) => True
  | .literal (.float value) => value.isFinite = true
  | .formula _ => False
  | .compare .. => True
  | .call .. => True

/-! ### Kinds -/

/-- The kinds of expressions that differ in their first character. -/
inductive Kind where
  | field
  | text
  | number
  | comparison
  | call
  deriving DecidableEq

/-- The kind of an expression. A formula that is text already has none. -/
def kind? : Expr → Option Kind
  | .field _ => some .field
  | .literal (.text _) => some .text
  | .literal _ => some .number
  | .formula _ => none
  | .compare .. => some .comparison
  | .call .. => some .call

/-- The kind of expressions that start with a character. -/
def Kind.ofChar? (c : Char) : Option Kind :=
  if c = '\x7b' then some .field
  else if c = '\'' then some .text
  else if c = '(' then some .comparison
  else if c.isDigit ∨ c = '-' then some .number
  else if c.isUpper then some .call
  else none

/-- A digit starts a number. -/
theorem Kind.ofChar?_of_isDigit {c : Char} (h : c.isDigit = true) :
    Kind.ofChar? c = some .number := by
  have hne : ∀ d : Char, d.isDigit = false → c ≠ d := by
    rintro d hd rfl
    rw [h] at hd
    cases hd
  rw [ofChar?, if_neg (hne _ rfl), if_neg (hne _ rfl), if_neg (hne _ rfl), if_pos (Or.inl h)]

/-- The name of a function starts a call. -/
theorem Kind.exists_name_eq_cons (fn : Function) :
    ∃ first others, fn.name.toList = first :: others ∧ Kind.ofChar? first = some .call := by
  cases fn <;> exact ⟨_, _, rfl, by decide⟩

end Expr

/-! ### Reading pieces -/

/-- Pieces that go on up to a stop are told apart from what follows them. -/
theorem append_inj_of_stop {p : Char → Bool} {n m r s : List Char} (hn : ∀ c ∈ n, p c = true)
    (hm : ∀ c ∈ m, p c = true) (hr : ∀ c ∈ r.head?, p c = false)
    (hs : ∀ c ∈ s.head?, p c = false) (h : n ++ r = m ++ s) : n = m ∧ r = s := by
  have htake : ∀ {n r : List Char}, (∀ c ∈ n, p c = true) → (∀ c ∈ r.head?, p c = false) →
      (n ++ r).takeWhile p = n := by
    intro n r hn hr
    rw [List.takeWhile_append_of_pos hn]
    cases r with
    | nil => simp
    | cons c rest => simp [hr c rfl]
  have heq : n = m := by rw [← htake hn hr, h, htake hm hs]
  subst heq
  exact ⟨rfl, List.append_cancel_left h⟩

/-- Pieces that end with a character they do not hold are told apart from what follows. -/
theorem append_cons_inj {n m r s : List Char} {stop : Char} (hn : stop ∉ n) (hm : stop ∉ m)
    (h : n ++ stop :: r = m ++ stop :: s) : n = m ∧ r = s := by
  obtain ⟨hpiece, hrest⟩ := Numeral.takeWhile_ne_append hn r
  obtain ⟨hpiece', hrest'⟩ := Numeral.takeWhile_ne_append hm s
  rw [h] at hpiece hrest
  exact ⟨hpiece.symm.trans hpiece', hrest.symm.trans hrest'⟩

/-- Whether a numeral ends before what follows. -/
def Follows (r : List Char) : Prop := ∀ c ∈ r.head?, Numeral.isMark c = false

/-- What starts with a character of no numeral follows a numeral. -/
theorem follows_cons {c : Char} (hc : Numeral.isMark c = false) (r : List Char) :
    Follows (c :: r) := by
  intro d hd
  cases hd
  exact hc

namespace Literal

/-- A finite float is written as it is laid out. -/
theorem toList_render {x : Binary64} (h : x.isFinite = true) :
    (formulaFloats.render x).toList = formulaFloats.chars x := by
  rw [Layout.render, if_pos h, String.toList_ofList]

/-- Whether a literal is a number that can be written. -/
def IsNumeral : Literal → Prop
  | .text _ => False
  | .integer _ => True
  | .float value => value.isFinite = true

/-- A written number is made of the marks of numerals. -/
theorem IsNumeral.marks_written {value : Literal} (h : value.IsNumeral) :
    Numeral.Marks value.written.toList := by
  cases value with
  | text value => exact h.elim
  | integer value => exact Numeral.marks_toString _
  | float value =>
      rw [written, toList_render h]
      exact formulaFloats.marks_chars value

/-- The first character of a written number tells its kind. -/
theorem IsNumeral.exists_written_eq_cons {value : Literal} (h : value.IsNumeral) :
    ∃ first others, value.written.toList = first :: others ∧
      Expr.Kind.ofChar? first = some .number := by
  have hstart : ∃ first others, value.written.toList = first :: others ∧
      (first.isDigit = true ∨ first = '-') := by
    cases value with
    | text value => exact h.elim
    | integer value => exact Numeral.exists_toString_eq_cons _
    | float value =>
        rw [written, toList_render h]
        exact formulaFloats.exists_chars_eq_cons value
  obtain ⟨first, others, hwritten, hfirst⟩ := hstart
  refine ⟨first, others, hwritten, ?_⟩
  rcases hfirst with hdigit | rfl
  · exact Expr.Kind.ofChar?_of_isDigit hdigit
  · rfl

/-- **Numbers written alike are alike.** -/
theorem IsNumeral.alike_of_written_eq {a b : Literal} (ha : a.IsNumeral) (hb : b.IsNumeral)
    (h : a.written = b.written) : a.Alike b := by
  cases a with
  | text s => exact ha.elim
  | integer m =>
      cases b with
      | text t => exact hb.elim
      | float y => exact h
      | integer n =>
          have hvalue := Numeral.value_toString m.toInt
          rw [show toString m.toInt = toString n.toInt from h, Numeral.value_toString] at hvalue
          exact Int64.toInt_inj.mp (Int.cast_injective hvalue).symm
  | float x =>
      cases b with
      | text t => exact hb.elim
      | integer n => exact h
      | float y =>
          refine ⟨h, formulaFloats.same_of_value_eq ha hb ?_⟩
          rw [← toList_render ha, ← toList_render hb, show formulaFloats.render x = _ from h]
          rfl

/-- A number is told apart from what follows it. -/
theorem IsNumeral.written_append_inj {a b : Literal} (ha : a.IsNumeral) (hb : b.IsNumeral)
    {r s : List Char} (hr : Follows r) (hs : Follows s)
    (h : a.written.toList ++ r = b.written.toList ++ s) : a.Alike b ∧ r = s := by
  obtain ⟨hwritten, hrest⟩ := append_inj_of_stop ha.marks_written hb.marks_written hr hs h
  exact ⟨ha.alike_of_written_eq hb (String.toList_inj.mp hwritten), hrest⟩

end Literal

namespace Expr

/-- A field between its braces. -/
theorem toList_written_field (f : Field) :
    (field f).written.toList = '\x7b' :: (f.remoteName.toList ++ ['\x7d']) := by
  simp [written]

/-- A text between its quotes. -/
theorem toList_written_text (value : String) :
    (literal (.text value)).written.toList = '\'' :: (value.toList ++ ['\'']) := by
  simp [written, Literal.written]

/-- A comparison between its parentheses. -/
theorem toList_written_compare (lhs rhs : Expr) (op : Comparison) :
    (compare lhs op rhs).written.toList =
      '(' :: (lhs.written.toList ++
        ' ' :: (op.symbol.toList ++ ' ' :: (rhs.written.toList ++ [')']))) := by
  simp [written]

/-- A call with its arguments between parentheses. -/
theorem toList_written_call (fn : Function) (args : List Expr) :
    (call fn args).written.toList =
      fn.name.toList ++ '(' :: ((writtenAll "" args).toList ++ [')']) := by
  simp [written]

/-- Arguments in a row. -/
theorem toList_writtenAll_cons (mark : String) (e : Expr) (rest : List Expr) :
    (writtenAll mark (e :: rest)).toList =
      mark.toList ++ (e.written.toList ++ (writtenAll ", " rest).toList) := by
  simp [writtenAll]

/-- A clear literal is a text without a quote, or a number that can be written. -/
theorem Clear.text_or_numeral {value : Literal} (h : (literal value).Clear) :
    (∃ text, value = .text text ∧ '\'' ∉ text.toList) ∨
      (value.IsNumeral ∧ (literal value).kind? = some .number) := by
  cases value with
  | text text => exact Or.inl ⟨text, rfl, h⟩
  | integer value => exact Or.inr ⟨trivial, rfl⟩
  | float value => exact Or.inr ⟨h, rfl⟩

/-- **The first character** of an expression tells its kind. -/
theorem Clear.exists_written_eq_cons {e : Expr} (h : e.Clear) :
    ∃ first others kind, e.written.toList = first :: others ∧
      Kind.ofChar? first = some kind ∧ e.kind? = some kind := by
  cases e with
  | field f => exact ⟨_, _, .field, toList_written_field f, rfl, rfl⟩
  | formula text => exact h.elim
  | compare lhs op rhs =>
      exact ⟨_, _, .comparison, toList_written_compare lhs rhs op, rfl, rfl⟩
  | call fn args =>
      obtain ⟨first, others, hname, hkind⟩ := Kind.exists_name_eq_cons fn
      refine ⟨first, others ++ '(' :: ((writtenAll "" args).toList ++ [')']), .call, ?_, hkind,
        rfl⟩
      rw [toList_written_call, hname, List.cons_append]
  | literal value =>
      rcases h.text_or_numeral with ⟨text, rfl, -⟩ | ⟨hvalue, hkind⟩
      · exact ⟨_, _, .text, toList_written_text text, rfl, rfl⟩
      · obtain ⟨first, others, hwritten, hfirst⟩ := hvalue.exists_written_eq_cons
        exact ⟨first, others, .number, hwritten, hfirst, hkind⟩

/-- Expressions that one text starts with are of one kind. -/
theorem kind?_eq_of_append_eq {a b : Expr} (ha : a.Clear) (hb : b.Clear) {r s : List Char}
    (h : a.written.toList ++ r = b.written.toList ++ s) : a.kind? = b.kind? := by
  obtain ⟨first, others, kind, hwritten, hfirst, hkind⟩ := ha.exists_written_eq_cons
  obtain ⟨first', others', kind', hwritten', hfirst', hkind'⟩ := hb.exists_written_eq_cons
  rw [hwritten, hwritten', List.cons_append, List.cons_append] at h
  rw [hkind, hkind', ← hfirst, ← hfirst', (List.cons.inj h).1]

/-- What an expression of a kind looks like. -/
theorem exists_of_kind? {e : Expr} {kind : Kind} (hclear : e.Clear) (h : e.kind? = some kind) :
    match kind with
    | .field => ∃ f, e = .field f ∧ '\x7d' ∉ f.remoteName.toList
    | .text => ∃ value, e = .literal (.text value) ∧ '\'' ∉ value.toList
    | .number => ∃ value, e = .literal value ∧ value.IsNumeral
    | .comparison => ∃ lhs op rhs, e = .compare lhs op rhs
    | .call => ∃ fn args, e = .call fn args := by
  cases e with
  | field f =>
      cases h
      exact ⟨f, rfl, hclear⟩
  | formula text => cases h
  | compare lhs op rhs =>
      cases h
      exact ⟨lhs, op, rhs, rfl⟩
  | call fn args =>
      cases h
      exact ⟨fn, args, rfl⟩
  | literal value =>
      rcases hclear.text_or_numeral with ⟨text, rfl, htext⟩ | ⟨hvalue, hnumber⟩
      · cases h
        exact ⟨text, rfl, htext⟩
      · rw [hnumber] at h
        cases h
        exact ⟨value, rfl, hvalue⟩

/-! ### Reading expressions -/

/-- Whether an expression can be told apart from whatever stands after it. -/
def Separable (a : Expr) : Prop :=
  ∀ (b : Expr) (r s : List Char), (∀ node ∈ b.nodes, node.Clear) → Follows r → Follows s →
    a.written.toList ++ r = b.written.toList ++ s → a.Alike b ∧ r = s

/-- A closing parenthesis is not the start of an argument. -/
theorem closing_ne_argument {mark : String} (hmark : ')' ∉ mark.toList) {e : Expr}
    (he : e.Clear) (r t : List Char) : ')' :: r ≠ mark.toList ++ (e.written.toList ++ t) := by
  intro h
  obtain ⟨first, others, kind, hwritten, hfirst, _⟩ := he.exists_written_eq_cons
  cases hlist : mark.toList with
  | nil =>
      rw [hlist, hwritten, List.nil_append, List.cons_append] at h
      rw [← (List.cons.inj h).1] at hfirst
      cases hfirst
  | cons c cs =>
      rw [hlist, List.cons_append] at h
      refine hmark ?_
      rw [hlist, (List.cons.inj h).1]
      exact List.mem_cons_self

/-- What stands after an argument follows a numeral. -/
theorem follows_writtenAll (args : List Expr) (r : List Char) :
    Follows ((writtenAll ", " args).toList ++ ')' :: r) := by
  cases args with
  | nil => exact follows_cons rfl _
  | cons arg rest =>
      rw [toList_writtenAll_cons]
      exact follows_cons rfl _

/-- Arguments are told apart one by one, and their closing parenthesis from a further one. -/
theorem writtenAll_append_inj {as bs : List Expr} {mark : String} {r s : List Char}
    (hsep : ∀ a ∈ as, a.Separable) (ha : ∀ node ∈ nodesAll as, node.Clear)
    (hb : ∀ node ∈ nodesAll bs, node.Clear) (hmark : ')' ∉ mark.toList)
    (h : (writtenAll mark as).toList ++ ')' :: r = (writtenAll mark bs).toList ++ ')' :: s) :
    AlikeAll as bs ∧ r = s := by
  induction as generalizing bs mark with
  | nil =>
      cases bs with
      | nil => exact ⟨trivial, (List.cons.inj h).2⟩
      | cons b bs =>
          have hclear := hb b (mem_nodesAll.mpr ⟨b, List.mem_cons_self, b.self_mem_nodes⟩)
          rw [toList_writtenAll_cons, List.append_assoc, List.append_assoc] at h
          exact absurd h (closing_ne_argument hmark hclear r _)
  | cons a as ih =>
      cases bs with
      | nil =>
          have hclear := ha a (mem_nodesAll.mpr ⟨a, List.mem_cons_self, a.self_mem_nodes⟩)
          rw [toList_writtenAll_cons, List.append_assoc, List.append_assoc] at h
          exact absurd h.symm (closing_ne_argument hmark hclear s _)
      | cons b bs =>
          rw [nodesAll, List.forall_mem_append] at ha hb
          rw [toList_writtenAll_cons, toList_writtenAll_cons, List.append_assoc,
            List.append_assoc, List.append_assoc, List.append_assoc] at h
          obtain ⟨halike, hrest⟩ := hsep a List.mem_cons_self b _ _ hb.1
            (follows_writtenAll as r) (follows_writtenAll bs s) (List.append_cancel_left h)
          obtain ⟨hall, hend⟩ := ih (fun e he => hsep e (List.mem_cons_of_mem _ he)) ha.2 hb.2
            (by decide) hrest
          exact ⟨⟨halike, hall⟩, hend⟩

/-- **Expressions are told apart from what follows them**: where one text starts with two
expressions, these are alike and end at one place. -/
theorem written_append_inj {a : Expr} (ha : ∀ node ∈ a.nodes, node.Clear) : a.Separable := by
  induction a with
  | field f =>
      intro b r s hb hr hs h
      have hclear := hb b b.self_mem_nodes
      have hkind := kind?_eq_of_append_eq (ha _ (self_mem_nodes _)) hclear h
      obtain ⟨g, rfl, hg⟩ := exists_of_kind? hclear hkind.symm
      rw [toList_written_field, toList_written_field, List.cons_append, List.cons_append,
        List.append_assoc, List.append_assoc] at h
      obtain ⟨hname, hrest⟩ := append_cons_inj (ha _ (self_mem_nodes _)) hg (List.cons.inj h).2
      exact ⟨String.toList_inj.mp hname, hrest⟩
  | literal value =>
      intro b r s hb hr hs h
      have hclear : (literal value).Clear := ha _ (self_mem_nodes _)
      have hkind := kind?_eq_of_append_eq hclear (hb b b.self_mem_nodes) h
      rcases hclear.text_or_numeral with ⟨text, rfl, htext⟩ | ⟨hvalue, hnumber⟩
      · obtain ⟨text', rfl, htext'⟩ := exists_of_kind? (hb b b.self_mem_nodes) hkind.symm
        rw [toList_written_text, toList_written_text, List.cons_append, List.cons_append,
          List.append_assoc, List.append_assoc] at h
        obtain ⟨heq, hrest⟩ := append_cons_inj htext htext' (List.cons.inj h).2
        exact ⟨String.toList_inj.mp heq, hrest⟩
      · rw [hnumber] at hkind
        obtain ⟨value', rfl, hvalue'⟩ := exists_of_kind? (hb b b.self_mem_nodes) hkind.symm
        exact hvalue.written_append_inj hvalue' hr hs h
  | formula text => exact (ha _ (self_mem_nodes _)).elim
  | compare lhs op rhs ihl ihr =>
      intro b r s hb hr hs h
      have hkind := kind?_eq_of_append_eq (ha _ (self_mem_nodes _)) (hb b b.self_mem_nodes) h
      obtain ⟨lhs', op', rhs', rfl⟩ := exists_of_kind? (hb b b.self_mem_nodes) hkind.symm
      rw [nodes, List.forall_mem_cons, List.forall_mem_append] at ha hb
      simp only [toList_written_compare, List.cons_append, List.append_assoc] at h
      obtain ⟨hlhs, hop⟩ := ihl ha.2.1 lhs' _ _ hb.2.1 (follows_cons rfl _) (follows_cons rfl _)
        (List.cons.inj h).2
      obtain ⟨hsymbol, hrhs⟩ := append_cons_inj op.blank_not_mem_symbol op'.blank_not_mem_symbol
        (List.cons.inj hop).2
      obtain ⟨hrhs, hend⟩ := ihr ha.2.2 rhs' _ _ hb.2.2 (follows_cons rfl _) (follows_cons rfl _)
        hrhs
      exact ⟨⟨hlhs, Comparison.symbol_injective (String.toList_inj.mp hsymbol), hrhs⟩,
        (List.cons.inj hend).2⟩
  | call fn args ih =>
      intro b r s hb hr hs h
      have hkind := kind?_eq_of_append_eq (ha _ (self_mem_nodes _)) (hb b b.self_mem_nodes) h
      obtain ⟨fn', args', rfl⟩ := exists_of_kind? (hb b b.self_mem_nodes) hkind.symm
      rw [nodes, List.forall_mem_cons] at ha hb
      simp only [toList_written_call, List.cons_append, List.append_assoc] at h
      obtain ⟨hname, hargs⟩ := append_cons_inj fn.paren_not_mem_name fn'.paren_not_mem_name h
      have hsep : ∀ arg ∈ args, arg.Separable := by
        intro arg harg
        exact ih arg harg fun node hnode => ha.2 node (mem_nodesAll.mpr ⟨arg, harg, hnode⟩)
      obtain ⟨hall, hend⟩ := writtenAll_append_inj hsep ha.2 hb.2 (by decide) hargs
      exact ⟨⟨Function.name_injective (String.toList_inj.mp hname), hall⟩, hend⟩

/-! ### Compiled expressions -/

/-- Whether no part of an expression is text already and no field holds a closing brace. -/
def Plain (e : Expr) : Prop :=
  (∀ text, formula text ∉ e.nodes) ∧ ∀ f, field f ∈ e.nodes → '\x7d' ∉ f.remoteName.toList

/-- A node of a plain expression with neither a defect nor a quote is clear. -/
theorem Plain.clear {e node : Expr} (h : e.Plain) (hnode : node ∈ e.nodes)
    (hdefect : node.defect? = none) (hquote : node.quote? = none) : node.Clear := by
  cases node with
  | field f => exact h.2 f hnode
  | formula text => exact h.1 text hnode
  | compare lhs op rhs => trivial
  | call fn args => trivial
  | literal value =>
      cases value with
      | integer value => trivial
      | text value =>
          intro hmem
          rw [quote?, if_pos hmem] at hquote
          cases hquote
      | float value =>
          by_contra hfinite
          rw [defect?, if_neg (show ¬value.isFinite = true from hfinite)] at hdefect
          cases hdefect

/-- A plain expression that compiles without a warning has clear nodes, and its formula. -/
theorem Plain.of_compile {e : Expr} {text : String} (h : e.Plain)
    (hok : e.compile.result = .ok text) (hquiet : e.compile.events = []) :
    (∀ node ∈ e.nodes, node.Clear) ∧ text = e.written := by
  rw [compile_eq, Compilation.visit] at hok
  rw [compile_eq, Compilation.events, List.map_eq_nil_iff, Compilation.visit] at hquiet
  cases hfind : e.nodes.findSome? defect? with
  | some reason =>
      simp only [hfind] at hok
      cases hok
  | none =>
      simp only [hfind] at hok
      have hsound := List.findSome?_eq_none_iff.mp hfind
      have hall : ∀ node ∈ e.nodes, (node.defect?.isNone) = true := by
        intro node hnode
        rw [hsound node hnode]
        rfl
      simp only [List.takeWhile_eq_self_iff.mpr hall, List.filterMap_eq_nil_iff] at hquiet
      refine ⟨fun node hnode => h.clear hnode (hsound node hnode) (hquiet node hnode), ?_⟩
      cases hok
      rfl

/-- **Formulas are unambiguous.** Plain expressions that compile to one text without a warning
are alike. -/
theorem compile_unambiguous {a b : Expr} {text : String} (hplain : a.Plain) (hplain' : b.Plain)
    (ha : a.compile.result = .ok text) (hb : b.compile.result = .ok text)
    (hquiet : a.compile.events = []) (hquiet' : b.compile.events = []) : a.Alike b := by
  obtain ⟨hclear, htext⟩ := hplain.of_compile ha hquiet
  obtain ⟨hclear', htext'⟩ := hplain'.of_compile hb hquiet'
  have hend : Follows [] := by simp [Follows]
  refine (written_append_inj hclear b [] [] hclear' hend hend ?_).1
  rw [← htext, ← htext']

/-- The same number as an integer and as a float, beside commas and parentheses in a name and
in a text. -/
theorem compile_unambiguous_integer_float :
    (call .and [compare (field ⟨0, .number, "Age, (years)"⟩) .gt (literal (.integer 30)),
        compare (field ⟨1, .text, "Name"⟩) .neq (literal (.text ") = , "))]).Alike
      (call .and [compare (field ⟨2, .number, "Age, (years)"⟩) .gt
          (literal (.float (.ofBits 0x403e000000000000))),
        compare (field ⟨3, .text, "Name"⟩) .neq (literal (.text ") = , "))]) := by
  refine @compile_unambiguous _ _
    "AND((\x7bAge, (years)\x7d > 30), (\x7bName\x7d != ') = , '))" ?_ ?_ ?_ ?_ ?_ ?_
  · simp [Plain, nodes, nodesAll]
  · simp [Plain, nodes, nodesAll]
  · decide +kernel
  · decide +kernel
  · decide +kernel
  · decide +kernel

end Expr

end RecordQuery
