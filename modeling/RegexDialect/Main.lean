import RegexDialect.Baseline.Engine
import RegexDialect.CommandLine

/-! The program: it runs the command that its arguments ask for. -/
namespace RegexDialect

def report (o : CommandLine.Outcome) : IO UInt32 := do
  IO.print (String.ofList o.output)
  IO.eprint (String.ofList o.errorText)
  return o.status.toUInt32

end RegexDialect

def main (arguments : List String) : IO UInt32 :=
  RegexDialect.report
    (RegexDialect.CommandLine.runArguments RegexDialect.Baseline.engine
      (arguments.map String.toList))
