import TeachLang.Compile
import TeachLang.Diagnostic.Snippet
import TeachLang.Diagnostic.Window

/-! # Reports

A compilation error shown on the lines around its token.  The window counts the marked place in
characters and the snippet in bytes; they agree where the window has one byte a character.
-/

namespace TeachLang

def CompileError.window (e : CompileError) : Window :=
  Window.around e.span.source e.lineCol.line

def CompileError.snippet (e : CompileError) (origin : Option String) : Snippet :=
  let window := e.window
  let (start, stop) := window.highlight e.span.start e.span.stop
  ⟨e.title, e.message, origin, window.text, window.firstLine, start, stop⟩

def CompileError.report (e : CompileError) (origin : Option String) (theme : Theme) : String :=
  (e.snippet origin).render theme

end TeachLang
