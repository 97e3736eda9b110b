import LambdaStack.Helpers.MergeSpec
import LambdaStack.Helpers.MergeAgain
import LambdaStack.Helpers.MergeTwice
import LambdaStack.Helpers.MergeMarkers
import LambdaStack.Helpers.MergeFailures
import LambdaStack.Helpers.ClusterIdentity
import LambdaStack.Helpers.StorageAccounts
import LambdaStack.Helpers.RemoveValue
import LambdaStack.Engine.Providers.Azure.SecurityGroups
import LambdaStack.Engine.Providers.Any.APIProxy
import LambdaStack.Engine.Providers.Azure.APIProxy
import LambdaStack.Engine.Providers.Aws.BuilderFrame
import LambdaStack.Engine.Providers.Azure.BuilderFrame
import LambdaStack.Engine.Ansible.RoleVars
import LambdaStack.Engine.Ansible.Credentials
import LambdaStack.Engine.Ansible.SharedModel
import LambdaStack.Engine.Providers.Aws.GroupRules
import LambdaStack.Engine.Providers.Aws.EfsGranted
import LambdaStack.Engine.Providers.Aws.OwnDocuments
import LambdaStack.Engine.Providers.Azure.EmissionRun
import LambdaStack.Engine.Providers.Azure.OwnDocuments
import LambdaStack.Engine.Providers.MachinesApart
import LambdaStack.Engine.Providers.OwnDocuments
import LambdaStack.Engine.Providers.WellFormedGraph
import LambdaStack.Engine.Terraform.TerraformCommand
import LambdaStack.Engine.RejectedApply
import LambdaStack.Engine.Schema.ValidatedAlone
import LambdaStack.Engine.StampedManifest
import LambdaStack.Engine.UpgradeEngine
import LambdaStack.Playbooks.FilterPlugins.Path
import LambdaStack.Engine.ApplyRefinement
