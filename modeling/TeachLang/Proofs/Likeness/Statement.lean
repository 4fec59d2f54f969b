import TeachLang.Proofs.Likeness.Expr

/-! # Likeness of statements

The checks of a block and of the changed block go alike, and leave tables that are alike: the only
rows that they add are the counters of loops, under the names that belong to the new names.
-/

namespace TeachLang

open Likeness

variable {L : Likeness} {ctx : Context} {t t' : Tables}

theorem Target.check_alike (ht : L.alike ctx.procedure t t') {target : Target}
    (h : target.Grammatical) :
    L.Answers (Target.map L.token id) (target.check t ctx)
      ((target.map L.token id).check t' (ctx.rename L.name)) := by
  cases target with
  | name i =>
    have hi := Identifier.check_alike ht h
    rw [Target.map, check, check]
    generalize i.check t ctx = c, (i.map L.token id).check _ _ = c' at hi ⊢
    cases hi with
    | ok i ty => exact .ok (Target.name i) ty
    | error i he => exact .error (Target.name i) he
  | element base opening position slot =>
    have hbase := Expr.check_alike ht base h.2.1
    have hposition := Expr.check_alike ht position h.2.2.2
    rw [Target.map, check, check]
    generalize base.check t ctx = c, (base.map L.token id).check _ _ = c' at hbase ⊢
    cases hbase with
    | error base he => exact .error (Target.element base opening position slot) he
    | ok base baseTy =>
      dsimp only
      generalize position.check t ctx = c, (position.map L.token id).check _ _ = c' at hposition ⊢
      cases hposition with
      | error position he => exact .error (Target.element base opening position slot) he
      | ok position found =>
        have helement := elementType_alike (L := L) opening baseTy position found
        dsimp only
        generalize elementType opening baseTy position found = c,
          elementType (L.token opening) baseTy _ found = c' at helement ⊢
        cases helement with
        | error he => exact .error (Target.element base opening position slot) he
        | ok hty =>
          subst hty
          exact .ok (Target.element base opening position _) _

theorem Tables.isConstant_alike (ht : L.alike ctx.procedure t t') {x : String} (hx : IsName x) :
    t'.isConstant (ctx.rename L.name) (L.name x) = t.isConstant ctx x := by
  rw [isConstant, isConstant, L.lookup? ht hx]

theorem checkCondition_alike (ht : L.alike ctx.procedure t t') (keyword : Token) (condition : Expr)
    (h : condition.Grammatical) :
    L.Answers (Expr.map L.token id) (checkCondition t ctx keyword condition)
      (checkCondition t' (ctx.rename L.name) (L.token keyword) (condition.map L.token id)) := by
  have hcondition := Expr.check_alike ht condition h
  rw [checkCondition, checkCondition]
  generalize condition.check t ctx = c, (condition.map L.token id).check _ _ = c' at hcondition ⊢
  cases hcondition with
  | error condition he => exact .error condition he
  | ok condition found =>
    dsimp only
    split
    · exact .ok condition ()
    · exact .error condition (fails rfl)

theorem Target.base?_map (g : Token → Token) (s : Slot → Slot) (target : Target) :
    (target.map g s).base? = target.base?.map (Identifier.map g s) := by
  cases target with
  | name i => rfl
  | element base opening position slot => cases base <;> rfl

theorem Target.Grammatical.base_check {target : Target} (h : target.Grammatical) :
    ∀ i ∈ (target.check t ctx).1.base?, i.Grammatical := by
  intro i hi
  obtain ⟨base, hbase, hwrites⟩ := h.exists_base
  have htoken : (target.check t ctx).1.base?.map (·.token) = target.base?.map (·.token) :=
    h.check_base
  rw [Option.mem_def.1 hi, hbase] at htoken
  have hsame : i.token = base.token := Option.some.inj htoken
  rw [Identifier.Grammatical, hsame]
  exact hwrites

theorem Target.constant?_alike (ht : L.alike ctx.procedure t t') {target : Target}
    (h : ∀ i ∈ target.base?, i.Grammatical) :
    (target.map L.token id).constant? t' (ctx.rename L.name) =
      (target.constant? t ctx).map (Identifier.map L.token id) := by
  rw [constant?, constant?, base?_map]
  cases hbase : target.base? with
  | none => rfl
  | some i =>
    have hwrites : i.token.Writes .identifier := h i hbase
    have hname : (i.map L.token id).name = L.name i.name := text_of_writes hwrites
    have hsame : t'.isConstant (ctx.rename L.name) (L.name i.name) = t.isConstant ctx i.name :=
      Tables.isConstant_alike ht hwrites.isName
    rw [Option.map_some, Option.filter_some, Option.filter_some, hname, hsame]
    split <;> rfl

theorem checkAssignment_alike (ht : L.alike ctx.procedure t t') {target : Target}
    (h : target.Grammatical) (symbol : Token) (value : Expr) (hvalue : value.Grammatical) :
    L.Answers (Prod.map (Target.map L.token id) (Expr.map L.token id))
      (checkAssignment t ctx target symbol value)
      (checkAssignment t' (ctx.rename L.name) (target.map L.token id) (L.token symbol)
        (value.map L.token id)) := by
  have htarget := Target.check_alike ht h
  have hbase : ∀ i ∈ (target.check t ctx).1.base?, i.Grammatical := h.base_check
  have hvalue := Expr.check_alike ht value hvalue
  rw [checkAssignment, checkAssignment]
  generalize target.check t ctx = c, (target.map L.token id).check _ _ = c' at htarget hbase ⊢
  cases htarget with
  | error target he => exact .error (target, value) he
  | ok left expected =>
    dsimp only
    rw [Target.constant?_alike ht hbase]
    cases hconstant : left.constant? t ctx with
    | some base =>
      have hwrites : base.token.Writes .identifier := 
        hbase base (Option.filter_eq_some_iff.1 hconstant).1
      have hname : (base.map L.token id).name = L.name base.name := text_of_writes hwrites
      refine .error (left, value) ?_
      rw [hname]
      exact fails rfl
    | none =>
      dsimp only [Option.map_none]
      generalize value.check t ctx = c, (value.map L.token id).check _ _ = c' at hvalue ⊢
      cases hvalue with
      | error value he => exact .error (left, value) he
      | ok value found =>
        dsimp only
        split
        · exact .ok (left, value) ()
        · exact .error (left, value) (fails rfl)

theorem checkForHead_alike (ht : L.alike ctx.procedure t t') {item : Identifier}
    (h : item.Grammatical) (iterable : Expr) (hiterable : iterable.Grammatical) :
    L.Answers (Prod.map (Identifier.map L.token id) (Expr.map L.token id))
      (checkForHead t ctx item iterable)
      (checkForHead t' (ctx.rename L.name) (item.map L.token id) (iterable.map L.token id)) := by
  have hitem := Identifier.check_alike ht h
  have hiterable := Expr.check_alike ht iterable hiterable
  rw [checkForHead, checkForHead]
  generalize item.check t ctx = c, (item.map L.token id).check _ _ = c' at hitem ⊢
  cases hitem with
  | error item he => exact .error (item, iterable) he
  | ok item itemTy =>
    dsimp only
    generalize iterable.check t ctx = c, (iterable.map L.token id).check _ _ = c' at hiterable ⊢
    cases hiterable with
    | error iterable he => exact .error (item, iterable) he
    | ok iterable listTy =>
      dsimp only
      split
      · exact .ok (item, iterable) ()
      · exact .error (item, iterable) (fails rfl)

theorem checkReturn_alike (ht : L.alike ctx.procedure t t') (keyword : Token) {value : Option Expr}
    (h : ∀ e ∈ value, e.Grammatical) :
    L.Answers (Option.map (Expr.map L.token id)) (checkReturn t ctx keyword value)
      (checkReturn t' (ctx.rename L.name) (L.token keyword) (value.map (Expr.map L.token id))) := by
  have hreturned : L.Answers (Option.map (Expr.map L.token id)) (checkReturned t ctx value)
      (checkReturned t' (ctx.rename L.name) (value.map (Expr.map L.token id))) := by
    cases value with
    | none => exact .ok none Ty.void
    | some e =>
      have he := Expr.check_alike ht e (h e rfl)
      rw [Option.map_some, checkReturned, checkReturned]
      generalize e.check t ctx = c, (e.map L.token id).check _ _ = c' at he ⊢
      cases he with
      | ok e ty => exact .ok (some e) ty
      | error e he => exact .error (some e) he
  have hresult := L.result ht
  rw [checkReturn, checkReturn]
  generalize t.current? ctx = p?, t'.current? (ctx.rename L.name) = p?' at hresult ⊢
  cases p? with
  | none =>
    obtain rfl := Option.map_eq_none_iff.1 hresult
    exact .error value (fails rfl)
  | some p =>
    obtain ⟨p', rfl, hty⟩ := Option.map_eq_some_iff.1 hresult
    dsimp only
    rw [hty]
    generalize checkReturned t ctx value = c, checkReturned t' _ _ = c' at hreturned ⊢
    cases hreturned with
    | error value he => exact .error value he
    | ok value found =>
      dsimp only
      split
      · exact .ok value found
      · exact .error value (fails rfl)

/-! Statements with bodies go alike where their bodies do. -/

theorem Statement.conditional_alike (ctx : Context) {t t' : Tables}
    (ht : L.alike ctx.procedure t t') (keyword : Token) {condition : Expr} {body : Block}
    {elseIfs : ElseIfs} {otherwise : Else} (elseIfsSlot slot : Slot) (h : condition.Grammatical)
    (hbody : ∀ ⦃t t'⦄, L.alike ctx.procedure t t' →
      L.Leaves ctx.procedure (Block.map L.token id) (body.check ctx t)
        ((body.map L.token id).check (ctx.rename L.name) t'))
    (helseIfs : ∀ ⦃t t'⦄, L.alike ctx.procedure t t' →
      L.Leaves ctx.procedure (ElseIfs.map L.token id) (elseIfs.check ctx t)
        ((elseIfs.map L.token id).check (ctx.rename L.name) t'))
    (hotherwise : ∀ ⦃t t'⦄, L.alike ctx.procedure t t' →
      L.Leaves ctx.procedure (Else.map L.token id) (otherwise.check ctx t)
        ((otherwise.map L.token id).check (ctx.rename L.name) t')) :
    L.Leaves ctx.procedure (Statement.map L.token id)
      ((Statement.conditional keyword condition body elseIfs elseIfsSlot otherwise slot).check ctx t)
      (((Statement.conditional keyword condition body elseIfs elseIfsSlot otherwise slot).map
        L.token id).check (ctx.rename L.name) t') := by
  have hcondition := checkCondition_alike ht keyword condition h
  have hbody := hbody ht
  rw [Statement.map, Statement.check, Statement.check]
  generalize checkCondition t ctx keyword condition = c, checkCondition t' _ _ _ = c'
    at hcondition ⊢
  cases hcondition with
  | error condition he =>
    exact .error
      (Statement.conditional keyword condition body elseIfs elseIfsSlot otherwise slot) ht he
  | ok condition _ =>
    dsimp only
    generalize body.check ctx t = c, (body.map L.token id).check _ _ = c' at hbody ⊢
    cases hbody with
    | error body ht he =>
      exact .error
        (Statement.conditional keyword condition body elseIfs elseIfsSlot otherwise slot) ht he
    | @ok body t t' ht =>
      have helseIfs := helseIfs ht
      dsimp only
      generalize elseIfs.check ctx t = c, (elseIfs.map L.token id).check _ _ = c' at helseIfs ⊢
      cases helseIfs with
      | error elseIfs ht he =>
        exact .error
          (Statement.conditional keyword condition body elseIfs elseIfsSlot otherwise slot) ht he
      | @ok elseIfs t t' ht =>
        have hotherwise := hotherwise ht
        dsimp only
        generalize otherwise.check ctx t = c, (otherwise.map L.token id).check _ _ = c'
          at hotherwise ⊢
        cases hotherwise with
        | error otherwise ht he =>
          exact .error
            (Statement.conditional keyword condition body elseIfs _ otherwise slot) ht he
        | ok otherwise ht =>
          exact .ok (Statement.conditional keyword condition body elseIfs _ otherwise _) ht

theorem Statement.forEach_alike (ctx : Context) {t t' : Tables} (ht : L.alike ctx.procedure t t')
    (keyword : Token) {item : Identifier} {iterable : Expr} {body : Block} (slot : Slot)
    (hitem : item.Grammatical) (hiterable : iterable.Grammatical)
    (hbody : ∀ ⦃t t'⦄, L.alike ctx.procedure t t' →
      L.Leaves ctx.procedure (Block.map L.token id) (body.check ctx.withLoop t)
        ((body.map L.token id).check (ctx.withLoop.rename L.name) t')) :
    L.Leaves ctx.procedure (Statement.map L.token id)
      ((Statement.forEach keyword item iterable body slot).check ctx t)
      (((Statement.forEach keyword item iterable body slot).map L.token id).check
        (ctx.rename L.name) t') := by
  have hhead := checkForHead_alike ht hitem iterable hiterable
  have htoken := checkForHead_token t ctx item iterable
  rw [Statement.map, Statement.check, Statement.check, Context.withLoop_rename]
  generalize checkForHead t ctx item iterable = c, checkForHead t' _ _ _ = c' at hhead htoken ⊢
  cases hhead with
  | error parts he => exact .error (Statement.forEach keyword parts.1 parts.2 body slot) ht he
  | ok parts _ =>
    obtain ⟨item', iterable'⟩ := parts
    have hwrites : item'.token.Writes .identifier := htoken ▸ hitem
    have hname : (item'.map L.token id).name = L.name item'.name := text_of_writes hwrites
    have hcounter : L.alike ctx.procedure (t.declare ctx (counterName item'.name) (.var .int))
        (t'.declare (ctx.rename L.name) (counterName (L.name item'.name)) (.var .int)) :=
      L.counter ht hwrites.isName
    have hbody := hbody hcounter
    dsimp only [Prod.map]
    rw [hname]
    generalize body.check ctx.withLoop _ = c,
      (body.map L.token id).check (ctx.withLoop.rename L.name) _ = c' at hbody ⊢
    cases hbody with
    | error body ht he =>
      exact .error (Statement.forEach keyword item' iterable' body slot) ht he
    | ok body ht => exact .ok (Statement.forEach keyword item' iterable' body _) ht

mutual

theorem Statement.check_alike (ctx : Context) {t t' : Tables} (ht : L.alike ctx.procedure t t')
    (s : Statement) (h : s.Grammatical) :
    L.Leaves ctx.procedure (Statement.map L.token id) (s.check ctx t)
      ((s.map L.token id).check (ctx.rename L.name) t') := by
  cases s with
  | assignment target symbol value slot =>
    have hassignment := checkAssignment_alike ht h.1 symbol value h.2.2
    rw [Statement.map, Statement.check, Statement.check]
    generalize checkAssignment t ctx target symbol value = c, checkAssignment t' _ _ _ _ = c'
      at hassignment ⊢
    cases hassignment with
    | error parts he => exact .error (Statement.assignment parts.1 symbol parts.2 slot) ht he
    | ok parts _ => exact .ok (Statement.assignment parts.1 symbol parts.2 _) ht
  | call callee args slot =>
    have hcall := checkCall_alike ht h.1 h.2
    rw [Statement.map, Statement.check, Statement.check]
    generalize checkCall t ctx callee args = c, checkCall t' _ _ _ = c' at hcall ⊢
    cases hcall with
    | error args he => exact .error (Statement.call callee args slot) ht he
    | ok args _ => exact .ok (Statement.call callee args _) ht
  | conditional keyword condition body elseIfs elseIfsSlot otherwise slot =>
    obtain ⟨-, hcondition, hbody, helseIfs, hotherwise⟩ := h
    exact Statement.conditional_alike ctx ht keyword elseIfsSlot slot hcondition
      (fun _ _ ht => Block.check_alike ctx ht body hbody)
      (fun _ _ ht => ElseIfs.check_alike ctx ht elseIfs helseIfs)
      (fun _ _ ht => Else.check_alike ctx ht otherwise hotherwise)
  | loop keyword body slot =>
    have hbody := Block.check_alike ctx.withLoop ht body h.2
    rw [Statement.map, Statement.check, Statement.check, Context.withLoop_rename]
    generalize body.check ctx.withLoop t = c,
      (body.map L.token id).check (ctx.withLoop.rename L.name) t' = c' at hbody ⊢
    cases hbody with
    | error body ht he => exact .error (Statement.loop keyword body slot) ht he
    | ok body ht => exact .ok (Statement.loop keyword body _) ht
  | forEach keyword item iterable body slot =>
    obtain ⟨-, hitem, hiterable, hbody⟩ := h
    exact Statement.forEach_alike ctx ht keyword slot hitem hiterable
      fun _ _ ht => Block.check_alike ctx.withLoop ht body hbody
  | returning keyword value slot =>
    have hreturn := checkReturn_alike ht keyword h.2
    rw [Statement.map, Statement.check, Statement.check]
    generalize checkReturn t ctx keyword value = c, checkReturn t' _ _ _ = c' at hreturn ⊢
    cases hreturn with
    | error value he => exact .error (Statement.returning keyword value slot) ht he
    | ok value _ => exact .ok (Statement.returning keyword value _) ht
  | exit keyword slot =>
    rw [Statement.map, Statement.check, Statement.check]
    change L.Leaves _ _ _ (if ctx.insideLoop then _ else _)
    split
    · exact .ok (Statement.exit keyword _) ht
    · exact .error (Statement.exit keyword slot) ht (fails rfl)

theorem Block.check_alike (ctx : Context) {t t' : Tables} (ht : L.alike ctx.procedure t t')
    (b : Block) (h : b.Grammatical) :
    L.Leaves ctx.procedure (Block.map L.token id) (b.check ctx t)
      ((b.map L.token id).check (ctx.rename L.name) t') := by
  cases b with
  | mk statements slot =>
    have hall := Statement.checkAll_alike ctx ht statements h
    rw [Block.map, Block.check, Block.check]
    generalize Statement.checkAll ctx t statements = c, Statement.checkAll _ t' _ = c' at hall ⊢
    cases hall with
    | error statements ht he => exact .error (Block.mk statements slot) ht he
    | ok statements ht => exact .ok (Block.mk statements _) ht

theorem Statement.checkAll_alike (ctx : Context) {t t' : Tables}
    (ht : L.alike ctx.procedure t t') (ss : List Statement) (h : Statement.AllGrammatical ss) :
    L.Leaves ctx.procedure (Statement.mapAll L.token id) (Statement.checkAll ctx t ss)
      (Statement.checkAll (ctx.rename L.name) t' (Statement.mapAll L.token id ss)) := by
  cases ss with
  | nil => exact .ok [] ht
  | cons s ss =>
    have hs := Statement.check_alike ctx ht s h.1
    rw [Statement.mapAll, Statement.checkAll, Statement.checkAll]
    generalize s.check ctx t = c, (s.map L.token id).check _ _ = c' at hs ⊢
    cases hs with
    | error s ht he => exact .error (s :: ss) ht he
    | @ok s t t' ht =>
      have hss := Statement.checkAll_alike ctx ht ss h.2
      dsimp only
      generalize Statement.checkAll ctx t ss = c, Statement.checkAll _ t' _ = c' at hss ⊢
      cases hss with
      | error ss ht he => exact .error (s :: ss) ht he
      | ok ss ht => exact .ok (s :: ss) ht

theorem ElseIfs.check_alike (ctx : Context) {t t' : Tables} (ht : L.alike ctx.procedure t t')
    (b : ElseIfs) (h : b.Grammatical) :
    L.Leaves ctx.procedure (ElseIfs.map L.token id) (b.check ctx t)
      ((b.map L.token id).check (ctx.rename L.name) t') := by
  cases b with
  | nil => exact .ok ElseIfs.nil ht
  | cons keyword condition body slot rest =>
    obtain ⟨-, hcondition, hbody, hrest⟩ := h
    have hcondition := checkCondition_alike ht keyword condition hcondition
    have hbody := Block.check_alike ctx ht body hbody
    rw [ElseIfs.map, ElseIfs.check, ElseIfs.check]
    generalize checkCondition t ctx keyword condition = c, checkCondition t' _ _ _ = c'
      at hcondition ⊢
    cases hcondition with
    | error condition he => exact .error (ElseIfs.cons keyword condition body slot rest) ht he
    | ok condition _ =>
      dsimp only
      generalize body.check ctx t = c, (body.map L.token id).check _ _ = c' at hbody ⊢
      cases hbody with
      | error body ht he => exact .error (ElseIfs.cons keyword condition body slot rest) ht he
      | @ok body t t' ht =>
        have hrest := ElseIfs.check_alike ctx ht rest hrest
        dsimp only
        generalize rest.check ctx t = c, (rest.map L.token id).check _ _ = c' at hrest ⊢
        cases hrest with
        | error rest ht he => exact .error (ElseIfs.cons keyword condition body _ rest) ht he
        | ok rest ht => exact .ok (ElseIfs.cons keyword condition body _ rest) ht

theorem Else.check_alike (ctx : Context) {t t' : Tables} (ht : L.alike ctx.procedure t t')
    (b : Else) (h : b.Grammatical) :
    L.Leaves ctx.procedure (Else.map L.token id) (b.check ctx t)
      ((b.map L.token id).check (ctx.rename L.name) t') := by
  cases b with
  | absent => exact .ok Else.absent ht
  | present keyword body slot =>
    have hbody := Block.check_alike ctx ht body h.2
    rw [Else.map, Else.check, Else.check]
    generalize body.check ctx t = c, (body.map L.token id).check _ _ = c' at hbody ⊢
    cases hbody with
    | error body ht he => exact .error (Else.present keyword body slot) ht he
    | ok body ht => exact .ok (Else.present keyword body _) ht

end

end TeachLang
