import ServiceChain.Document.Json.Whole
import ServiceChain.Main
import ServiceChain.Proofs.Accounts
import ServiceChain.Proofs.AddressSteering
import ServiceChain.Proofs.DefaultsHeld
import ServiceChain.Proofs.DocumentForms
import ServiceChain.Proofs.FailedLeases
import ServiceChain.Proofs.ForwardPipeline
import ServiceChain.Proofs.HopDelivery
import ServiceChain.Proofs.PoolRuns
import ServiceChain.Proofs.RenderVerdict
import ServiceChain.Proofs.Teardown
import ServiceChain.Proofs.TransparentReturns
import ServiceChain.Proofs.TunnelChains
import ServiceChain.Proofs.TerminalPrecedence
import ServiceChain.Proofs.MacGrammar
import ServiceChain.Proofs.VlanGrammar
import ServiceChain.Proofs.LocatorChoice
import ServiceChain.Proofs.LinkSearch
