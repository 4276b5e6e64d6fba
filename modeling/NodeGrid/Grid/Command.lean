import NodeGrid.Grid.Basic

/-!
# Commands to a grid

Whatever is done to a grid is one of these commands, so a list of commands is a history of the
grid.
-/

namespace NodeGrid

/-- An operation on a grid with its arguments. -/
inductive Command where
  | start
  | stop
  | addNode
  | removeNode (handle : Handle)
  | link (first : Handle) (firstPort : Port) (second : Handle) (secondPort : Port)
  | unlink (handle : Handle) (port : Port)
  | join (first : Handle) (firstPort : Port) (second : Handle) (secondPort : Port)
  | split (handle : Handle)
  | compile (handle : Handle) (source : List (List Char))
  | setEnabled (handle : Handle) (enabled : Bool)
  | resetNode (handle : Handle)
  | step
  deriving DecidableEq, Repr

/-- What a successful command answers. -/
inductive Reply where
  | done
  | added (handle : Handle)
  | joined (near far : Handle)
  deriving DecidableEq, Repr

namespace Grid

/-- Carry out a command. -/
def execute (grid : Grid) : Command → Except GridError Reply × Grid
  | .start => (.ok .done, grid.start)
  | .stop => (.ok .done, grid.stop)
  | .addNode => grid.addNode.map (·.map .added) id
  | .removeNode handle => (grid.removeNode handle).map (·.map fun _ => .done) id
  | .link first firstPort second secondPort =>
      (grid.link first firstPort second secondPort).map (·.map fun _ => .done) id
  | .unlink handle port => (grid.unlink handle port).map (·.map fun _ => .done) id
  | .join first firstPort second secondPort =>
      (grid.join first firstPort second secondPort).map
        (·.map fun (near, far) => .joined near far) id
  | .split handle => (grid.split handle).map (·.map fun _ => .done) id
  | .compile handle source => (grid.compile handle source).map (·.map fun _ => .done) id
  | .setEnabled handle enabled => (grid.setEnabled handle enabled).map (·.map fun _ => .done) id
  | .resetNode handle => (grid.resetNode handle).map (·.map fun _ => .done) id
  | .step => (.ok .done, grid.step)

/-- The grid after a history of commands. -/
def run (grid : Grid) (history : List Command) : Grid :=
  history.foldl (fun before command => (before.execute command).2) grid

end Grid

end NodeGrid
