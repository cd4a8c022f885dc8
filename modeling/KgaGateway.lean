import KgaGateway.Entailment
import KgaGateway.Lib.Json
import KgaGateway.Lib.Traced
import KgaGateway.Config
import KgaGateway.StepUp
import KgaGateway.Deps
import KgaGateway.Auth0
import KgaGateway.Finance
import KgaGateway.Gates
import KgaGateway.Registry
import KgaGateway.Example
import KgaGateway.Relay
import KgaGateway.Main
import KgaGateway.Lib.JsonRoundTrip
import KgaGateway.Lib.Register
import KgaGateway.TokenStore
import KgaGateway.TokenInvariant
import KgaGateway.Linearizability
import KgaGateway.PowerLoss
import KgaGateway.ErrorMapping
import KgaGateway.ItemAddress
import KgaGateway.Passthrough
import KgaGateway.Lib.Uri
import KgaGateway.Lib.PyJsonRoundTrip
import KgaGateway.Lib.Program
import KgaGateway.Lib.PyVerbatim
import KgaGateway.FileTokenStore
import KgaGateway.SaveRefinement
import KgaGateway.Lib.Dialogue
import KgaGateway.Lib.Host
import KgaGateway.Surface
import KgaGateway.Process
import KgaGateway.ProcessRefinement
import KgaGateway.ProcessRuns
import KgaGateway.Secrecy
import KgaGateway.Recovery
import KgaGateway.Epochs
import KgaGateway.TempFiles
import KgaGateway.Access
import KgaGateway.Lib.Render
import KgaGateway.Answers
import KgaGateway.Session
import KgaGateway.Progress
import KgaGateway.Lifetime
