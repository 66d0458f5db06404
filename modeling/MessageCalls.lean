import MessageCalls.Account.World
import MessageCalls.Executor.Transaction
import MessageCalls.Json.Records
import MessageCalls.Native.Standard
import MessageCalls.Script.Run
import MessageCalls.Yaml.Rules
import MessageCalls.Proofs.Overlay.Lifetime
import MessageCalls.Proofs.Overlay.Transfers
import MessageCalls.Proofs.Overlay.Flattening
import MessageCalls.Proofs.Executor.StaticMode
import MessageCalls.Proofs.Executor.Survival
import MessageCalls.Proofs.Executor.Telling
import MessageCalls.Proofs.Executor.Discipline
import MessageCalls.Proofs.Executor.Conservation
import MessageCalls.Proofs.World.Persistence
import MessageCalls.Proofs.Executor.Prediction
import MessageCalls.Proofs.Executor.Courses
import MessageCalls.Proofs.Executor.Logging
import MessageCalls.Proofs.Executor.Deployment
import MessageCalls.Proofs.World.Existence
import MessageCalls.Proofs.Executor.Nesting
import MessageCalls.Proofs.Executor.Bracketing
import MessageCalls.Proofs.Executor.Abreast
import MessageCalls.Proofs.Executor.Batching
import MessageCalls.Proofs.Executor.Nonces
import MessageCalls.Proofs.Executor.Identities
import MessageCalls.Proofs.Executor.Spending
import MessageCalls.Proofs.Json.RoundTrip
import MessageCalls.Proofs.Native.Pricing
import MessageCalls.Proofs.Block.Ancestors
import MessageCalls.Proofs.Rlp.ContractPreimage
import MessageCalls.Proofs.Executor.NativeCalls
import MessageCalls.Proofs.Yaml.Overrides
