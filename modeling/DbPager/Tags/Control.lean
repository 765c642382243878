import DbPager.Expression

/-!
# Variables, control flow and custom tags

The `execute` methods of the built-in tags that steer a script: variables,
`try` and `switch`, loops, custom tags and their calls.
-/

namespace DbPager

open Effect

variable {W : Type}

/-- `tag_var`. -/
def TagVar.execute (interp : Interp W) (self : Loc) (caller : Option Loc) :
    M W Unit :=
  M.withLayer do
    let names ← interp.getParameter self "name"
    Prog.forEach (fun name => do
        let type ← interp.getParameter self "type"
        let value ← interp.getParameter self "value"
        M.addTyped interp.dcl name value
          (if type.isEmpty then Context.localType else type))
      (interp.dcl.tokens names)
    interp.executeChilds self caller

/-- `tag_set`. -/
def TagSet.execute (interp : Interp W) (self : Loc) (caller : Option Loc) :
    M W Unit := do
  let value ← (interp.executeChilds self caller).capture
  let names ← interp.getParameter self "name"
  Prog.forEach (fun name => M.setValue interp.dcl name value)
    (interp.dcl.tokens names)

/-- `tag_catch::process_exception`, for an `app_exception` and for any other
`std::exception`. -/
def TagCatch.processException (interp : Interp W) (self : Loc)
    (exception : Exc) (caller : Option Loc) : M W Unit :=
  M.withLayer do
    Prog.when (exception.cls == .app)
      (M.addValue interp.dcl "error_code".toList
        (interp.dcl.toStringInt exception.code))
    M.addValue interp.dcl "error_message".toList exception.what
    interp.executeChilds self caller

/-- `tag_try`.  The child found under the name `catch` is cast to `tag_catch`
without a check, which is undefined for a tag of another class. -/
def TagTry.execute (interp : Interp W) (self : Loc) (caller : Option Loc) :
    M W Unit :=
  Prog.tryCatch
    (do
      let out ← (interp.executeChilds self caller).capture
      Prog.emit out)
    (fun exception =>
      if exception.isStd then
        match self.getChild "catch".toList with
        | none => Prog.throw exception
        | some handler =>
            match handler.tag.kind with
            | .catch =>
                TagCatch.processException interp handler exception caller
            | _ => Prog.halt .fault
      else Prog.throw exception)

/-- The text of the exception: the parameter, or else the content. -/
def TagThrow.message (interp : Interp W) (self : Loc) (caller : Option Loc)
    (parameter : Str) : M W Str :=
  if parameter.isEmpty then (interp.executeChilds self caller).capture
  else pure parameter

/-- `tag_throw`. -/
def TagThrow.execute (interp : Interp W) (self : Loc) (caller : Option Loc) :
    M W Unit := do
  let parameter ← interp.getParameter self "message"
  let message ← TagThrow.message interp self caller parameter
  let code ← interp.getParameter self "code"
  if code.isEmpty then Prog.throw (.dbp message)
  else Prog.throw (.app message (← M.int interp.dcl code))

def switchVar : Str := "@DBP:SWITCH@".toList

/-- `tag_case`. -/
def TagCase.execute (interp : Interp W) (self : Loc) (caller : Option Loc) :
    M W Unit := do
  let pattern ← interp.getParameter self "match"
  let tested ← M.getValue switchVar
  Prog.when (pattern.isEmpty || tested == pattern) do
    interp.executeChilds self caller
    Prog.throw .tagCase

/-- `tag_switch`. -/
def TagSwitch.execute (interp : Interp W) (self : Loc) (caller : Option Loc) :
    M W Unit :=
  M.withLayer
    (Prog.tryCatch
      (do
        M.addValue interp.dcl switchVar (← interp.getParameter self "test")
        interp.executeChilds self caller)
      (fun exception =>
        if exception.cls == .tagCase then pure () else Prog.throw exception))

/-- `tag_while`. -/
def TagWhile.execute (interp : Interp W) (self : Loc) (caller : Option Loc) :
    M W Unit :=
  Prog.whileLoop
    (do pure ((← interp.getParameter self "test") == "1".toList))
    (interp.executeChilds self caller) interp.budget

/-- Every parameter is executed in the layer that already holds the ones
before it. -/
def bindArguments (interp : Interp W) (self : Loc) :
    List (Str × Str) → M W Unit :=
  Prog.forEach fun param => do
    let value ← interp.executeParam self param.2
    M.addValue interp.dcl param.1 value

/-- Push the call, execute the definition with the call as its caller, and
pop the call however the definition ends. -/
def invoke (interp : Interp W) (self definition : Loc) : M W Unit := do
  M.record (.call self definition)
  M.push self
  Prog.onError (interp.run definition (some self))
    (do let _ ← M.pop; M.record .ret)
  let _ ← M.pop
  M.record .ret

/-- The definition a `tag_usr` executes: the linked one, or the one found by
its name. -/
def TagUsr.target (self : Loc) : Option Loc :=
  match self.tag.kind with
  | .usr name (some addr) =>
      match findAddr addr self.up with
      | some found => some found
      | none => findTag name.text self.up
  | .usr name none => findTag name.text self.up
  | .userFunction name => findTag name self.up
  | _ => none

def undefinedTag (interp : Interp W) (name : Str) : Exc :=
  interp.dcl.exception "custom tag '\x7b0\x7d' is not defined at this scope"
    [name]

/-- `tag_usr`. -/
def TagUsr.execute (interp : Interp W) (self : Loc) : M W Unit :=
  M.withLayer do
    bindArguments interp self self.tag.params
    match TagUsr.target self with
    | some definition => invoke interp self definition
    | none => Prog.throw (undefinedTag interp self.tag.getName)

/-- The parameters of a `tag_call` that become variables. -/
def TagCall.arguments (self : Loc) : List (Str × Str) :=
  self.tag.params.filter fun param => param.1 != "name".toList

/-- `tag_call`. -/
def TagCall.execute (interp : Interp W) (self : Loc) : M W Unit := do
  let name ← interp.getParameter self "name"
  M.withLayer do
    bindArguments interp self (TagCall.arguments self)
    match findTag name self.up with
    | some definition => invoke interp self definition
    | none => Prog.throw (undefinedTag interp name)

/-- `tag_execute`, with `tag_usr::execute_direct`.  The call that was on top
of the stack is only pushed back when its body has ended normally. -/
def TagExecute.execute (interp : Interp W) (self : Loc) : M W Unit := do
  M.record (.reached self (← Prog.read St.exec))
  match ← M.pop with
  | none => pure ()
  | some call =>
      Prog.onError
        (do
          let name ← interp.getParameter self "name"
          if name.isEmpty then
            M.record (.render self call name)
            interp.executeChilds call (some self)
            M.push call
            M.record .rendered
          else
            match call.getChild ('@' :: name) with
            | some slot =>
                M.record (.render self call name)
                interp.run slot (some call)
                M.push call
                M.record .rendered
            | none => M.push call)
        (M.record .unwound)

/-- `tag_tag`: the content runs only for a caller that is a `tag_usr`. -/
def TagTag.execute (interp : Interp W) (self : Loc) (caller : Option Loc) :
    M W Unit :=
  match caller with
  | some tag =>
      if tag.tag.kind.isUsr then interp.executeChilds self caller else pure ()
  | none => pure ()

/-- One thread of `tag_async`: a local context of its own, whose parent is
the enclosing context, and an output that is lost with an exception. -/
def TagAsync.thread (interp : Interp W) (self : Loc) (caller : Option Loc)
    (tag : Tag) : M W Str := do
  Prog.modify fun state =>
    { state with contexts := Context.newLocal :: state.contexts }
  let out ← Prog.tryCatch (interp.run (self.child tag) caller).capture
    (fun _ => pure [])
  Prog.modify fun state => { state with contexts := state.contexts.tail }
  pure out

/-- The threads in the order of the schedule, each with its child's number. -/
def TagAsync.threads (interp : Interp W) (self : Loc) (caller : Option Loc) :
    List Nat → M W (List (Nat × Str))
  | [] => pure []
  | number :: numbers => do
      match self.tag.childs[number]? with
      | some tag =>
          let out ← TagAsync.thread interp self caller tag
          pure ((number, out) :: (← TagAsync.threads interp self caller numbers))
      | none => TagAsync.threads interp self caller numbers

/-- `tag_async`: the outputs are written in the order of the children. -/
def TagAsync.execute (interp : Interp W) (self : Loc) (caller : Option Loc) :
    M W Unit := do
  let outputs ← TagAsync.threads interp self caller
    (interp.outside.schedule self.tag.childs.length)
  Prog.forEach (fun number => Prog.emit ((outputs.lookup number).getD []))
    (List.range self.tag.childs.length)

/-- `tag_expression`. -/
def TagExpression.execute (interp : Interp W) (self : Loc) : M W Unit := do
  Prog.emit (← interp.evaluate (self.tag :: self.up) self.tag.text)

end DbPager
