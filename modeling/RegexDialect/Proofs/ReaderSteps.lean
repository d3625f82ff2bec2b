import RegexDialect.Baseline.Reader

/-! The readers of the baseline with nothing to skip in front: what each of them does at a place, by
the text there. -/
namespace RegexDialect.Baseline.Reader

def takeSign (sign : Char) : Text → Bool × Text
  | [] => (false, [])
  | c :: r => if c = sign then (true, r) else (false, c :: r)

theorem takeSign_eq (t : Text) {sign : Char} {r : Text} (h : t = sign :: r) :
    takeSign sign t = (true, r) := by
  subst h
  exact if_pos rfl

theorem takeSign_of_not (t : Text) {sign : Char} (h : ∀ r, t = sign :: r → False) :
    takeSign sign t = (false, t) := by
  rcases t with _ | ⟨c, r⟩
  · rfl
  · refine if_neg ?_
    rintro rfl
    exact h r rfl

/-- What a quantifier makes of an expression, with the signs that may follow it. -/
def quantified (e : Expr) (least : Nat) (most : Option Nat) (n : Notes) (t : Text) :
    Except BuildFault (Reader.Step Expr) :=
  let (lazy, t) := match t with
    | '?' :: r => (true, r)
    | r => (false, r)
  let e := Expr.repeated e least most (lazy == n.mode.swapGreed)
  match t with
  | '+' :: r => .ok (.atomic e, r, n)
  | r => .ok (e, r, n)

theorem quantified_eq (e : Expr) (least : Nat) (most : Option Nat) (n : Notes) (t : Text) :
    quantified e least most n t =
      (let lazy := takeSign '?' t
      let possessive := takeSign '+' lazy.2
      let e := Expr.repeated e least most (lazy.1 == n.mode.swapGreed)
      .ok (if possessive.1 then .atomic e else e, possessive.2, n)) := by
  have hlazy : (match t with | '?' :: r => (true, r) | r => (false, r)) = takeSign '?' t := by
    split
    · exact (takeSign_eq _ rfl).symm
    · exact (takeSign_of_not _ ‹_›).symm
  unfold quantified
  rw [hlazy]
  dsimp only
  split
  · next r hr =>
    rw [takeSign_eq _ hr]
    rfl
  · next hplus =>
    rw [takeSign_of_not _ hplus]
    rfl

def unitAt (size fuel depth : Nat) (n : Notes) : Text → Except BuildFault (Reader.Step Expr)
  | [] => .ok (.empty, [], n)
  | '.' :: r => .ok (.atom (.any n.mode.dotLineFeed), r, n)
  | '^' :: r => .ok (.anchor (if n.mode.multiline then .lineStart else .textStart), r, n)
  | '$' :: r => .ok (.anchor (if n.mode.multiline then .lineEnd else .textEnd), r, n)
  | '(' :: r =>
    if depth < maxDepth then Reader.groupOpening size fuel (depth + 1) r n
    else .error .nestedTooDeep
  | '\\' :: r => escape size r n
  | '[' :: r => readClass r >>= fun x => .ok (.atom (.set x.1 n.mode.caseless), x.2, n)
  | c :: r =>
    if c == '+' || c == '*' || c == '?' || c == '|' || c == ')' then .ok (.empty, c :: r, n)
    else .ok (.atom (.char c n.mode.caseless), r, n)

theorem unit_succ (size fuel depth : Nat) (t : Text) (n : Notes) :
    Reader.unit size (fuel + 1) depth t n = skipIn n t >>= unitAt size fuel depth n := by
  rw [Reader.unit]
  rfl

/-- After the question mark of a group: its flags, and after a colon its content. -/
def flagged (size fuel depth : Nat) (t : Text) (n : Notes) : Except BuildFault (Reader.Step Expr) :=
  flags (t.length + 1) 0 false t n >>= fun x =>
    match x.1 with
    | .group => .ok (.empty, x.2.1, x.2.2)
    | .content => Reader.alternatives size fuel depth x.2.1 x.2.2 >>= fun y =>
      closing y.2.2 y.2.1 >>= fun rest => .ok (y.1, rest, { y.2.2 with mode := n.mode })

def namedGroup (size fuel depth : Nat) (t : Text) (n : Notes) :
    Except BuildFault (Reader.Step Expr) :=
  match name? ['>'] t with
  | some (name, r) =>
    let index := n.groups + 1
    Reader.groupBody size fuel depth .capture r { n with groups := index, names :=
      (name, index) :: n.names }
  | none => .error .badGroupName

def openingAt (size fuel depth : Nat) (n : Notes) : Text → Except BuildFault (Reader.Step Expr)
  | '?' :: '=' :: r => Reader.groupBody size fuel depth (.look .ahead) r n
  | '?' :: '!' :: r => Reader.groupBody size fuel depth (.look .notAhead) r n
  | '?' :: '<' :: '=' :: r => Reader.groupBody size fuel depth (.look .behind) r n
  | '?' :: '<' :: '!' :: r => Reader.groupBody size fuel depth (.look .notBehind) r n
  | '?' :: '<' :: r => namedGroup size fuel depth r n
  | '?' :: 'P' :: '<' :: r => namedGroup size fuel depth r n
  | '?' :: 'P' :: '=' :: r =>
    namedReference [')'] false r n >>= fun x => .ok (.backreference x.1, x.2.1, x.2.2)
  | '?' :: '>' :: r => Reader.groupBody size fuel depth .atomic r n
  | '?' :: '(' :: r => Reader.conditional size fuel depth r n
  | '?' :: r => flagged size fuel depth r n
  | r => Reader.groupBody size fuel depth .capture r { n with groups := n.groups + 1 }

theorem openingAt_of_not {size fuel depth : Nat} {t : Text} {n : Notes}
    (h : ∀ r, t = '?' :: r → False) :
    openingAt size fuel depth n t =
      Reader.groupBody size fuel depth .capture t { n with groups := n.groups + 1 } := by
  fun_cases openingAt size fuel depth n t with
  | case11 => rfl
  | _ => exact (h _ rfl).elim

theorem groupOpening_succ (size fuel depth : Nat) (t : Text) (n : Notes) :
    Reader.groupOpening size (fuel + 1) depth t n = skipIn n t >>= openingAt size fuel depth n := by
  rw [Reader.groupOpening]
  rfl

/-- The end of a conditional, with its condition, its content, the text from the content on and the
text behind it. -/
def conditionalEnd (condition body : Expr) (t rest : Text) (n : Notes) :
    Except BuildFault (Reader.Step Expr) :=
  if rest.length == t.length then
    match condition with
    | .backreference group => closing n rest >>= fun rest => .ok (.groupSet group, rest, n)
    | _ => .error .emptyCondition
  else closing n rest >>= fun rest => .ok (conditionalOf condition body, rest, n)

theorem conditional_succ (size fuel depth : Nat) (t : Text) (n : Notes) :
    Reader.conditional size (fuel + 1) depth t n =
    (Reader.condition size t n (fun _ => Reader.alternatives size fuel depth t n) >>= fun x =>
      closing x.2.2 x.2.1 >>= fun u => Reader.alternatives size fuel depth u x.2.2 >>= fun y =>
        conditionalEnd x.1 y.1 u y.2.1 y.2.2) := by
  rw [Reader.conditional]
  rfl

end RegexDialect.Baseline.Reader
