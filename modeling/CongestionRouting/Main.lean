import CongestionRouting.Scenario.Options

open CongestionRouting

def main (arguments : List String) : IO UInt32 := do
  match Scenario.ofArguments arguments with
  | .ok scenario =>
    for line in scenario.lines do
      IO.println line
    return 0
  | .error e =>
    IO.eprintln e.message
    return 2
