import PocketShell.Shortcuts.Chord

/-!
# The registry of shortcuts

The registry as data: the surfaces and which of them are live at the same time, one row for each
binding, and the chords that may not be bound. The notes beside the rows are left out.
-/

namespace PocketShell.Shortcuts

open Js (Text ascii)

/-! ## 1. Surfaces -/

inductive ShortcutSurface
  | global
  | workspace
  | terminal
  | composer
  | files
  | doodle
  deriving DecidableEq

open ShortcutSurface in
/-- Which surfaces are live at the same time. -/
def SURFACE_COLLISIONS : ShortcutSurface → List ShortcutSurface
  | .global => [global, workspace, terminal, composer, files, doodle]
  | .workspace => [global, workspace, terminal, composer, files]
  | .terminal => [global, workspace, terminal, composer]
  | .composer => [global, workspace, terminal, composer, files, doodle]
  | .files => [global, workspace, composer, files]
  | .doodle => [global, composer, doodle]

def surfacesCollide (a b : ShortcutSurface) : Bool := (SURFACE_COLLISIONS a).contains b

theorem surfacesCollide_symm (a b : ShortcutSurface) : surfacesCollide a b = surfacesCollide b a := by
  cases a <;> cases b <;> rfl

/-- Surfaces where a keystroke can end up in front of a shell. -/
def reachesAShell (surface : ShortcutSurface) : Bool := surfacesCollide surface .terminal

def surfaceLabel : ShortcutSurface → Text
  | .global => ascii "Everywhere"
  | .workspace => ascii "Tabs"
  | .terminal => ascii "Terminal"
  | .composer => ascii "Prompt composer"
  | .files => ascii "Files"
  | .doodle => ascii "Annotate"

/-! ## 2. The rows -/

inductive ShortcutOwner
  | app
  | main
  | menu
  | library

inductive Ladder
  | escape
  | enter
  | listStep
  deriving DecidableEq

structure ShortcutSpec where
  id : Text
  surface : ShortcutSurface
  label : Text
  defaults : List Text
  owner : ShortcutOwner
  rebindable : Bool
  /-- the ladders this binding is a rung of -/
  ladders : List Ladder

def SHORTCUTS : List ShortcutSpec := [
  { id := ascii "zoom.in", surface := .global,
    label := ascii "Zoom the whole window in",
    defaults := ["Ctrl+=", "Ctrl++"].map ascii, owner := .main, rebindable := false, ladders := [] },
  { id := ascii "zoom.out", surface := .global,
    label := ascii "Zoom the whole window out",
    defaults := ["Ctrl+-"].map ascii, owner := .main, rebindable := false, ladders := [] },
  { id := ascii "zoom.reset", surface := .global,
    label := ascii "Reset zoom to 100%",
    defaults := ["Ctrl+0"].map ascii, owner := .main, rebindable := false, ladders := [] },
  { id := ascii "window.close", surface := .global,
    label := ascii "Close the window",
    defaults := ["Ctrl+Shift+W"].map ascii, owner := .main, rebindable := false, ladders := [] },
  { id := ascii "window.devTools", surface := .global,
    label := ascii "Toggle DevTools",
    defaults := ["Ctrl+Shift+I"].map ascii, owner := .main, rebindable := false, ladders := [] },
  { id := ascii "overlay.close", surface := .global,
    label := ascii "Close the panel in front (Settings, Ports, Usage, a dialog)",
    defaults := ["Escape"].map ascii, owner := .app, rebindable := false, ladders := [.escape] },
  { id := ascii "text.deleteWordBackward", surface := .global,
    label := ascii "Delete the word before the caret — inside a text field",
    defaults := ["Ctrl+W"].map ascii, owner := .app, rebindable := false, ladders := [] },
  { id := ascii "tabs.stepLeftRight", surface := .workspace,
    label := ascii "The tab to the left, the tab to the right",
    defaults := ["Ctrl+[", "Ctrl+]"].map ascii, owner := .app, rebindable := false, ladders := [] },
  { id := ascii "tabs.rename", surface := .workspace,
    label := ascii "Rename the current tab",
    defaults := ["Ctrl+Shift+R"].map ascii, owner := .app, rebindable := false, ladders := [] },
  { id := ascii "tabs.close", surface := .workspace,
    label := ascii "Close the current tab",
    defaults := ["Ctrl+F4"].map ascii, owner := .app, rebindable := true, ladders := [] },
  { id := ascii "workspaces.stepUpDown", surface := .global,
    label := ascii "The workspace above, the workspace below",
    defaults := ["Ctrl+ArrowUp", "Ctrl+ArrowDown"].map ascii, owner := .app, rebindable := false, ladders := [] },
  { id := ascii "workspace.quickActions", surface := .global,
    label := ascii "Quick actions — the command palette",
    defaults := ["Ctrl+P", "Ctrl+Shift+P"].map ascii, owner := .app, rebindable := false, ladders := [] },
  { id := ascii "sessions.new", surface := .workspace,
    label := ascii "New session — open the folder picker",
    defaults := ["Ctrl+Shift+N"].map ascii, owner := .app, rebindable := true, ladders := [] },
  { id := ascii "sessions.newInFolder", surface := .workspace,
    label := ascii "New shell session in this folder",
    defaults := ["Ctrl+N"].map ascii, owner := .app, rebindable := true, ladders := [] },
  { id := ascii "sessions.filterTree", surface := .workspace,
    label := ascii "Quick search the session panel",
    defaults := ["Ctrl+Shift+F"].map ascii, owner := .app, rebindable := true, ladders := [] },
  { id := ascii "terminal.pasteIntoShell", surface := .terminal,
    label := ascii "Paste into the shell (right-click)",
    defaults := [].map ascii, owner := .app, rebindable := false, ladders := [] },
  { id := ascii "terminal.copySelection", surface := .terminal,
    label := ascii "Copy the selection",
    defaults := ["Ctrl+Shift+C"].map ascii, owner := .app, rebindable := true, ladders := [] },
  { id := ascii "terminal.ctrlCCopiesSelection", surface := .terminal,
    label := ascii "Ctrl+C copies the selection",
    defaults := ["Ctrl+C"].map ascii, owner := .app, rebindable := false, ladders := [] },
  { id := ascii "terminal.copyScreen", surface := .terminal,
    label := ascii "Copy the visible screen as text",
    defaults := ["Ctrl+Shift+Y"].map ascii, owner := .app, rebindable := true, ladders := [] },
  { id := ascii "terminal.copyBuffer", surface := .terminal,
    label := ascii "Copy the whole buffer (with scrollback) as text",
    defaults := ["Ctrl+Shift+B"].map ascii, owner := .app, rebindable := true, ladders := [] },
  { id := ascii "terminal.pasteIntoComposer", surface := .terminal,
    label := ascii "Put the clipboard in the prompt composer",
    defaults := ["Ctrl+V", "Ctrl+Shift+V"].map ascii, owner := .app, rebindable := false, ladders := [] },
  { id := ascii "terminal.scrollback", surface := .terminal,
    label := ascii "Scroll the pane’s buffer",
    defaults := ["Shift+PageUp", "Shift+PageDown"].map ascii, owner := .library, rebindable := false, ladders := [] },
  { id := ascii "terminal.typingOpensComposer", surface := .terminal,
    label := ascii "Typing opens the prompt composer",
    defaults := [].map ascii, owner := .app, rebindable := false, ladders := [] },
  { id := ascii "composer.toggle", surface := .composer,
    label := ascii "Open or close the composer",
    defaults := ["Ctrl+`"].map ascii, owner := .app, rebindable := true, ladders := [] },
  { id := ascii "composer.toggleAlt", surface := .composer,
    label := ascii "Open or close the composer (second chord)",
    defaults := ["Ctrl+Shift+K"].map ascii, owner := .app, rebindable := true, ladders := [] },
  { id := ascii "composer.grow", surface := .composer,
    label := ascii "Make the composer bigger",
    defaults := ["Ctrl+Shift+ArrowUp"].map ascii, owner := .app, rebindable := true, ladders := [] },
  { id := ascii "composer.shrink", surface := .composer,
    label := ascii "Make the composer smaller, and close it past the bottom",
    defaults := ["Ctrl+Shift+ArrowDown"].map ascii, owner := .app, rebindable := true, ladders := [] },
  { id := ascii "composer.attach", surface := .composer,
    label := ascii "Attach a file",
    defaults := ["Ctrl+Shift+A"].map ascii, owner := .app, rebindable := true, ladders := [] },
  { id := ascii "composer.send", surface := .composer,
    label := ascii "Send the prompt",
    defaults := ["Enter", "Ctrl+Enter"].map ascii, owner := .app, rebindable := false, ladders := [.enter] },
  { id := ascii "composer.newline", surface := .composer,
    label := ascii "Newline inside the prompt",
    defaults := ["Shift+Enter"].map ascii, owner := .app, rebindable := false, ladders := [] },
  { id := ascii "composer.discard", surface := .composer,
    label := ascii "Discard the draft",
    defaults := ["Ctrl+Shift+Backspace"].map ascii, owner := .app, rebindable := true, ladders := [] },
  { id := ascii "composer.dismiss", surface := .composer,
    label := ascii "Close the composer, keeping the draft",
    defaults := ["Escape"].map ascii, owner := .app, rebindable := false, ladders := [.escape] },
  { id := ascii "composer.slashNext", surface := .composer,
    label := ascii "Move through the slash-command list",
    defaults := ["ArrowDown", "ArrowUp"].map ascii, owner := .app, rebindable := false, ladders := [.listStep] },
  { id := ascii "composer.slashAccept", surface := .composer,
    label := ascii "Accept the highlighted slash command",
    defaults := ["Tab", "Enter"].map ascii, owner := .app, rebindable := false, ladders := [.enter] },
  { id := ascii "files.treeStep", surface := .files,
    label := ascii "Move through the file list",
    defaults := ["ArrowDown", "ArrowUp", "Home", "End"].map ascii, owner := .app, rebindable := false,
    ladders := [.listStep] },
  { id := ascii "files.save", surface := .files,
    label := ascii "Save the open file",
    defaults := ["Ctrl+S"].map ascii, owner := .app, rebindable := true, ladders := [] },
  { id := ascii "files.gotoPath", surface := .files,
    label := ascii "Type a path to go to",
    defaults := ["Ctrl+L"].map ascii, owner := .app, rebindable := true, ladders := [] },
  { id := ascii "files.filterTree", surface := .files,
    label := ascii "Filter this folder",
    defaults := ["Ctrl+F"].map ascii, owner := .app, rebindable := true, ladders := [] },
  { id := ascii "files.goRoot", surface := .files,
    label := ascii "Jump to the workspace root",
    defaults := ["Ctrl+Shift+H"].map ascii, owner := .app, rebindable := true, ladders := [] },
  { id := ascii "files.editorUndo", surface := .files,
    label := ascii "Undo in the open file",
    defaults := ["Ctrl+Z"].map ascii, owner := .library, rebindable := false, ladders := [] },
  { id := ascii "files.editorRedo", surface := .files,
    label := ascii "Redo in the open file",
    defaults := ["Ctrl+Y", "Ctrl+Shift+Z"].map ascii, owner := .library, rebindable := false, ladders := [] },
  { id := ascii "files.editorTabFocus", surface := .files,
    label := ascii "Let Tab move focus out of the editor again",
    defaults := ["Ctrl+M"].map ascii, owner := .library, rebindable := false, ladders := [] },
  { id := ascii "files.editorBack", surface := .files,
    label := ascii "Go back to the previous cursor location",
    defaults := ["Alt+ArrowLeft"].map ascii, owner := .app, rebindable := true, ladders := [] },
  { id := ascii "files.editorForward", surface := .files,
    label := ascii "Go forward to the location before going back",
    defaults := ["Alt+ArrowRight"].map ascii, owner := .app, rebindable := true, ladders := [] },
  { id := ascii "doodle.undo", surface := .doodle,
    label := ascii "Undo the last mark",
    defaults := ["Ctrl+Z"].map ascii, owner := .app, rebindable := true, ladders := [] },
  { id := ascii "doodle.commitText", surface := .doodle,
    label := ascii "Finish the caption you are typing",
    defaults := ["Escape", "Ctrl+Enter"].map ascii, owner := .app, rebindable := false, ladders := [.escape, .enter] }]

def shortcutById (id : Text) : Option ShortcutSpec := SHORTCUTS.find? (·.id = id)

/-! ## 3. What may not be bound -/

structure ReservedChord where
  chord : Text
  why : Text

structure MenuChord where
  chord : Text
  role : Text

/-- Chords a user must never be able to take away from their own shell. -/
def RESERVED_CHORDS : List ReservedChord := [
  ⟨ascii "Ctrl+C", ascii "SIGINT when nothing is selected — the only way to stop a running program. With a " ++
    ascii "selection the pane copies instead, which is fixed (terminal.ctrlCCopiesSelection), and no rebindable " ++
    ascii "command may take the chord either way."⟩,
  ⟨ascii "Ctrl+D", ascii "End of input — the only way to exit a shell or a REPL."⟩,
  ⟨ascii "Ctrl+Z", ascii "SIGTSTP — suspends the foreground job."⟩,
  ⟨ascii "Ctrl+B", ascii "tmux’s default prefix. Without it there is no tmux."⟩,
  ⟨ascii "Ctrl+A", ascii "The other tmux prefix in common use, and readline’s beginning-of-line."⟩,
  ⟨ascii "Ctrl+\\", ascii "SIGQUIT — the stop that works when SIGINT does not."⟩,
  ⟨ascii "Ctrl+S", ascii "XOFF. Freezes the terminal, and Ctrl+Q is the only way back."⟩,
  ⟨ascii "Ctrl+Q", ascii "XON — the way back out of a frozen terminal."⟩]

/-- Accelerators of the default application menu that the page cannot take back. -/
def MENU_CLAIMED_UNSUPPRESSIBLE : List MenuChord := [
  ⟨ascii "Ctrl+W", ascii "close — shuts the window. readline wants it for delete-word."⟩,
  ⟨ascii "Ctrl+Q", ascii "quit — exits the app."⟩,
  ⟨ascii "Ctrl+M", ascii "minimize."⟩,
  ⟨ascii "Ctrl+R", ascii "reload — throws away the whole renderer, terminals included."⟩,
  ⟨ascii "Ctrl+Shift+R", ascii "forceReload."⟩,
  ⟨ascii "Ctrl+Shift+I", ascii "toggleDevTools."⟩,
  ⟨ascii "F12", ascii "toggleDevTools."⟩,
  ⟨ascii "F11", ascii "togglefullscreen."⟩]

/-- Chords the zoom commands already own. -/
def ZOOM_OWNED : List Text :=
  ["Ctrl+=", "Ctrl++", "Ctrl+Shift+=", "Ctrl+Shift++", "Ctrl+-", "Ctrl+0"].map ascii

/-- Key tokens that are only ever a modifier. -/
def MODIFIER_KEYS : List Text :=
  ["CONTROL", "SHIFT", "ALT", "META", "OS", "ALTGRAPH", "CAPSLOCK"].map ascii

end PocketShell.Shortcuts
