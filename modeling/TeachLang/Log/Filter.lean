import TeachLang.Log.Directive

/-! # Log filters

A filter decides which events are shown.  It is written as directives with commas between.  Of the
directives that cover an event the one that says most about it counts, and of two that say the same
the later one.
-/

namespace TeachLang

structure Filter where
  directives : List Directive
deriving DecidableEq, Repr

namespace Filter

def ofThreshold (threshold : Threshold) : Filter := ⟨[⟨none, none, none, some threshold⟩]⟩

/-- What is shown where nobody asks for more or less. -/
def standard : Filter := .ofThreshold (.upTo .info)

def ofText? (text : String) : Option Filter := do
  let directives ← ((text.splitOn ",").filter (!·.isEmpty)).mapM Directive.ofText?
  return ⟨directives⟩

/-- The filter of an optional setting; without a good one the standard filter. -/
def ofSetting (setting : Option String) : Filter := (setting.bind ofText?).getD standard

/-- Of two directives the one that counts. -/
def weightier (best : Option Directive) (d : Directive) : Option Directive :=
  if best.all (·.yieldsTo d) then some d else best

def directiveFor (f : Filter) (e : Event) : Option Directive :=
  (f.directives.filter (·.covers e)).foldl weightier none

/-- Whether an event is shown.  What no directive covers is not. -/
def admits (f : Filter) (e : Event) : Bool :=
  (f.directiveFor e).any (·.admits e.severity)

def select (f : Filter) (events : List Event) : List Event := events.filter f.admits

end Filter
end TeachLang
