import ModalRust.Wrapper.Isolation
import ModalRust.Wrapper.Sequential
import ModalRust.Sdk.Retry
import ModalRust.Sdk.Transport
import ModalRust.Sdk.ExactlyOnce
import ModalRust.Sdk.Outputs
import ModalRust.Worklist
import ModalRust.Scope.SelfConsistent
import ModalRust.Upload.Survive
import ModalRust.Runtime.Agreement
import ModalRust.Runtime.InStep
import ModalRust.Runtime.CheckInput
import ModalRust.Facade.SuccessEnvelope
import ModalRust.Facade.Function
import ModalRust.Provision.DefinitionsKept
import ModalRust.Provision.Secrets
import ModalRust.RunWrapper.SourceKey
import ModalRust.RunWrapper.Stores
import ModalRust.RunWrapper.Archive
import ModalRust.Describe.CacheKey
import ModalRust.Describe.Inputs
import ModalRust.Describe.Interleaving
import ModalRust.Describe.Verify
import ModalRust.Describe.Validate
import ModalRust.Sdk.Planning
import ModalRust.Transcript
import ModalRust.Provision.Dump
import ModalRust.Provision.DumpAgrees
import ModalRust.ReorderBuffer
import ModalRust.Sdk.MapOutputs
import ModalRust.Pickle
import ModalRust.Sdk.Pickle
import ModalRust.Provision.ImageDeclared
import ModalRust.Shell
import ModalRust.Provision.Installer
import ModalRust.Facade.Inventory
import ModalRust.Scope.Closure
import ModalRust.Upload.MountFunction
import ModalRust.Provision.VolumeMounts
import ModalRust.Macros.RetriesAgree
import ModalRust.Sdk.RetryTransient
import ModalRust.Sdk.QueueGet
import ModalRust.Macros.Decorator
import ModalRust.Macros.NumbersAgree
import ModalRust.Scope.MinimalEdits
import ModalRust.Scope.LexicallyNormalize
import ModalRust.Sdk.Config
import ModalRust.Sdk.ImageBuild
import ModalRust.Facade.Queue
import ModalRust.Cli.ScannersAgree
import ModalRust.Sdk.VolumeIntegrity
import ModalRust.Facade.ObjectRuns
import ModalRust.Sdk.MountUpload
import ModalRust.Scope.StubInvariance
import ModalRust.Scope.ShadowPaths
import ModalRust.Sdk.HttpPut
import ModalRust.Provision.WebAttributes
import ModalRust.Provision.Base64
import ModalRust.Provision.RunImage
